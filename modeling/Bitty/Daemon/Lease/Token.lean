import Bitty.Daemon.Lease.Run

/-! The control token of a session: which of the issued ones verifies, and when none does. -/

namespace Bitty.Daemon

open Std (ExtTreeMap)

def issued (told : List Label) : List ControlToken :=
  told.filterMap fun
    | .created token | .issued token => some token
    | _ => none

/-- Control of the session has been retired, and no session was created anew since. -/
def controlRetired (told : List Label) : Bool :=
  told.foldl (fun past label =>
    match label with
    | .created _ => false
    | .retired | .completed .. => true
    | _ => past) false

@[simp] theorem issued_append (first second : List Label) : issued (first ++ second) = issued first ++ issued second :=
  List.filterMap_append

section

variable {told : List Label} {token : ControlToken}

theorem controlRetired_created : controlRetired (told ++ [.created token]) = false := by simp [controlRetired]

theorem controlRetired_retired : controlRetired (told ++ [.retired]) = true := by simp [controlRetired]

theorem controlRetired_completed {snapshot : SessionSnapshot} {reason : TerminalReason} {actor : Actor} :
    controlRetired (told ++ [.completed snapshot reason actor]) = true := by simp [controlRetired]

theorem controlRetired_issued : controlRetired (told ++ [.issued token]) = controlRetired told := by simp [controlRetired]

theorem controlRetired_accepted {reason : TerminalReason} {actor : Actor} :
    controlRetired (told ++ [.accepted reason actor]) = controlRetired told := by simp [controlRetired]

theorem controlRetired_bound : controlRetired (told ++ [.bound]) = controlRetired told := by simp [controlRetired]

theorem controlRetired_append {later : List Label} (retired : controlRetired told = true)
    (same : ∀ token, .created token ∉ later) : controlRetired (told ++ later) = true := by
  induction later generalizing told with
  | nil => simpa using retired
  | cons label later ih =>
    rw [List.append_cons]
    have rest := fun token inside => same token (List.mem_cons_of_mem label inside)
    refine ih ?_ rest
    cases label with
    | created token => exact absurd List.mem_cons_self (same token)
    | issued token => rw [controlRetired_issued, retired]
    | retired => exact controlRetired_retired
    | accepted reason actor => rw [controlRetired_accepted, retired]
    | bound => rw [controlRetired_bound, retired]
    | completed snapshot reason actor => exact controlRetired_completed

end

namespace Slot

variable {digest : ControlToken → ControlTokenDigest} {maxAttaches : Nat} {told ls : List Label} {x y : Slot}
  {s : SessionLeaseState}

/-- The token slot of a session, as its callers know it: retired, with nobody in control, or the digest of the last
token issued. -/
def Keeps (digest : ControlToken → ControlTokenDigest) (told : List Label) (x : Slot) : Prop :=
  ∀ s, x.state = some s →
    if controlRetired told then s.token = .retired ∧ s.controller = none
    else ∃ token, (issued told).getLast? = some token ∧ s.token = .current (digest token)

theorem keeps_live {r : SessionRecord} : Keeps digest told (live r s) ↔
    if controlRetired told then s.token = .retired ∧ s.controller = none
    else ∃ token, (issued told).getLast? = some token ∧ s.token = .current (digest token) := by
  simp [Keeps, live]

theorem Keeps.same {r r' : SessionRecord} {s' : SessionLeaseState} (keeps : Keeps digest told (live r s))
    (token : s'.token = s.token) (controller : s.controller = none → s'.controller = none) :
    Keeps digest told (live r' s') := by
  rw [keeps_live] at keeps ⊢
  split_ifs at keeps ⊢
  · exact ⟨token.trans keeps.1, controller keeps.2⟩
  · rw [token]
    exact keeps

theorem keeps_issued {r : SessionRecord} {token : ControlToken} (current : s.token = .current (digest token))
    (unretired : controlRetired told = false) : Keeps digest (told ++ [.issued token]) (live r s) := by
  rw [keeps_live, controlRetired_issued, if_neg (by simp [unretired])]
  exact ⟨token, by simp [issued], current⟩

theorem Keeps.unretired {r : SessionRecord} (keeps : Keeps digest told (live r s))
    (possible : s.token ≠ .retired ∨ s.controller ≠ none) : controlRetired told = false := by
  rw [keeps_live] at keeps
  cases retired : controlRetired told with
  | false => rfl
  | true =>
    rw [if_pos retired] at keeps
    rcases possible with token | controller
    · exact absurd keeps.1 token
    · exact absurd keeps.2 controller

theorem not_retired_of_matches {presented : ControlToken} (known : s.tokenMatches digest presented = true) :
    s.token ≠ .retired := by
  intro retired
  rw [SessionLeaseState.tokenMatches, retired] at known
  cases known

theorem Keeps.move (keeps : Keeps digest told x) (move : Move digest maxAttaches x ls y) : Keeps digest (told ++ ls) y := by
  cases move with
  | touch same =>
    rw [List.append_nil]
    exact keeps.same rfl id
  | renew kept =>
    rw [List.append_nil]
    exact keeps.same rfl id
  | attach fresh role room counted =>
    rw [List.append_nil]
    exact keeps.same rfl id
  | @drop r r' s a lease now here counted =>
    rw [List.append_nil]
    refine keeps.same rfl fun none => ?_
    simp [SessionLeaseState.removeLease, none]
  | claim fresh role vacant known counted =>
    exact keeps_issued rfl (keeps.unretired (.inl (not_retired_of_matches known)))
  | hand holds here role same => exact keeps_issued rfl (keeps.unretired (.inr (by simp [holds])))
  | take vacant known here role same => exact keeps_issued rfl (keeps.unretired (.inl (not_retired_of_matches known)))
  | retire vacant =>
    rw [keeps_live, controlRetired_retired, if_pos rfl]
    exact ⟨rfl, vacant⟩
  | @cancel r s reason actor created first =>
    have same : Keeps digest told (live r { s with cancel := some ⟨reason, actor⟩ }) := keeps.same rfl id
    rw [keeps_live] at same ⊢
    rw [controlRetired_accepted]
    simpa [issued] using same
  | @stop r r' s now begun first stopping =>
    have same : Keeps digest told (live r' { s with stop := some begun }) := keeps.same rfl id
    rw [keeps_live] at same ⊢
    rw [controlRetired_accepted]
    simpa [issued] using same
  | escalate kept =>
    rw [List.append_nil]
    exact keeps.same rfl id
  | @bind r r' s now first running =>
    have same : Keeps digest told (live r' s) := keeps.same rfl id
    rw [keeps_live] at same ⊢
    rw [controlRetired_bound]
    simpa [issued] using same
  | release within released overflow =>
    rw [List.append_nil]
    exact keeps.same rfl id
  | complete released checked caused =>
    rintro _ ⟨⟩
    rw [controlRetired_completed, if_pos rfl]
    exact ⟨rfl, rfl⟩
  | evict =>
    rw [List.append_nil]
    exact keeps
  | forget =>
    rintro _ ⟨⟩
  | create created unbound unattached =>
    rw [keeps_live, controlRetired_created, if_neg (by simp)]
    exact ⟨_, by simp [issued], rfl⟩
  | discard created unbound free =>
    rintro _ ⟨⟩

theorem Keeps.path (keeps : Keeps digest told x) (path : Path digest maxAttaches x ls y) : Keeps digest (told ++ ls) y := by
  induction path generalizing told with
  | nil =>
    rw [List.append_nil]
    exact keeps
  | cons move rest ih =>
    rw [← List.append_assoc]
    exact ih (keeps.move move)

end Slot

def Op.minted : Op → Answer → Option ControlToken
  | .create _ _, .created c => some c.controlToken
  | .claimController _ _ _, .claimed c => some c.controlToken
  | .transferControl _ _ _ _, .transferred t => some t.delivery.token
  | _, _ => none

theorem issued_stop (reason : TerminalReason) (x : StopOutcome) : issued (x.told reason) = [] := by
  unfold StopOutcome.told
  split
  · split_ifs <;> rfl
  · split_ifs <;> rfl
  · rfl

theorem issued_termination (x : Termination) : issued x.told = [] := by
  cases x <;> rfl

theorem issued_only (s t : SessionId) (ls : List Label) :
    issued (SessionHost.only s ls t) = if s = t then issued ls else [] := by
  unfold SessionHost.only
  split_ifs <;> rfl

theorem issued_told (op : Op) (x : Answer) (s : SessionId) :
    issued (op.told x s) = [] ∨ ∃ token, op.minted x = some token ∧ issued (op.told x s) = [token] := by
  unfold Op.told
  split
  · rename_i c
    rw [issued_only]
    split_ifs
    · exact .inr ⟨c.controlToken, rfl, rfl⟩
    · exact .inl rfl
  · rw [issued_only]
    exact .inl (by split_ifs <;> rfl)
  · rename_i c
    rw [issued_only]
    split_ifs
    · exact .inr ⟨c.controlToken, rfl, rfl⟩
    · exact .inl rfl
  · rename_i t
    rw [issued_only]
    split_ifs
    · exact .inr ⟨t.delivery.token, rfl, rfl⟩
    · exact .inl rfl
  · refine .inl ?_
    split_ifs
    · rw [issued_only]
      split_ifs <;> rfl
    · rfl
  · rw [issued_only, issued_stop]
    exact .inl (by split_ifs <;> rfl)
  · rw [issued_only, issued_stop]
    exact .inl (by split_ifs <;> rfl)
  · rw [issued_only, issued_stop]
    exact .inl (by split_ifs <;> rfl)
  · rw [issued_only, issued_termination]
    exact .inl (by split_ifs <;> rfl)
  · rw [issued_only, issued_termination]
    exact .inl (by split_ifs <;> rfl)
  · exact .inl rfl

namespace SessionHost

open Mutation

variable {digest : ControlToken → ControlTokenDigest} {now : MonotonicMs} {h h' : SessionHost} {s : SessionId}

theorem mintRotatedToken_ok {token : ControlToken} (run : mintRotatedToken digest s h = (.ok token, h')) :
    h.entropy.fills32 = some token.bytes :: h'.entropy.fills32 := by
  obtain ⟨minted, h₁, mint, rest⟩ := bind_ok run
  obtain ⟨_, h₂, check, done⟩ := bind_ok rest
  obtain ⟨answer, rfl⟩ := Prod.mk.inj done
  obtain rfl := Except.ok.inj answer
  obtain ⟨rfl, -⟩ := refuseIf_cases check
  exact mintToken_ok mint

theorem onRegistry_entropy {α : Type} {m : RegistryM α} {answer : Except LeaseRefusal α}
    (run : onRegistry m h = (answer, h')) : h'.entropy = h.entropy := by
  rw [onRegistry_apply] at run
  obtain ⟨-, rfl⟩ := Prod.mk.inj run
  rfl

theorem vacate_entropy {expired : Option Lease} {answer : Except LeaseRefusal (Option LeaseExpiry)}
    (run : vacate s now expired h = (answer, h')) : h'.entropy = h.entropy := by
  cases expired with
  | none =>
    obtain ⟨-, rfl⟩ := Prod.mk.inj run
    rfl
  | some l =>
    have removed {answer' : Except LeaseRefusal (Lease × SessionSnapshot)} {h₁ : SessionHost}
        (first : removeLease s l.attachId now h = (answer', h₁)) : h₁.entropy = h.entropy := by
      rcases removeLease_cases first with ⟨-, -, rfl⟩ | ⟨_, _, _, _, _, _, _, _, -, rfl⟩ <;> rfl
    unfold vacate at run
    rcases bind_cases run with ⟨e, first, -⟩ | ⟨x, h₁, first, rest⟩
    · exact removed first
    · obtain ⟨-, rfl⟩ := Prod.mk.inj rest
      exact removed first

theorem mintAttachId_entropy {a : AttachId} (run : mintAttachId h = (.ok a, h')) :
    h'.entropy.fills32 = h.entropy.fills32 := by
  obtain ⟨e, kept, same⟩ := mintAttachIdWithin_spec ID_GENERATION_ATTEMPTS h
  unfold mintAttachId at run
  rw [run] at same
  simp only at same
  rw [same]
  exact kept

theorem createKind_token {request : CreateSession} {kind : SessionKind} {c : CreatedSession}
    (run : createKind digest request kind now h = (.ok c, h')) :
    h.entropy.fills32 = some c.controlToken.bytes :: h'.entropy.fills32 := by
  obtain ⟨token, h₁, mint, run⟩ := bind_ok run
  obtain ⟨session, h₂, made, run⟩ := bind_ok run
  have same := onRegistry_entropy made
  obtain ⟨answer, rfl⟩ := Prod.mk.inj run
  obtain rfl := Except.ok.inj answer
  have minted := mintToken_ok mint
  rw [← same] at minted
  exact minted

theorem claimController_token {generation : Nat} {presented : ControlToken} {c : Claimed}
    (run : claimController digest s generation presented now h = (.ok c, h')) :
    h.entropy.fills32 = some c.controlToken.bytes :: h'.entropy.fills32 := by
  unfold claimController at run
  obtain ⟨session, -, run⟩ := ask_bind_ok run
  obtain ⟨-, run⟩ := refuseIf_bind_ok run
  obtain ⟨-, run⟩ := refuseIf_bind_ok run
  obtain ⟨st, -, run⟩ := ask_bind_ok run
  obtain ⟨-, run⟩ := refuseIf_bind_ok run
  obtain ⟨-, run⟩ := refuseIf_bind_ok run
  obtain ⟨token, h₁, mint, run⟩ := bind_ok run
  obtain ⟨a, h₂, taken, run⟩ := bind_ok run
  rw [read_bind] at run
  obtain ⟨vacated, h₃, left, run⟩ := bind_ok run
  obtain ⟨session, h₄, counted, run⟩ := bind_ok run
  obtain ⟨_, -, run⟩ := ask_bind_ok run
  obtain ⟨answer, rfl⟩ := Prod.mk.inj run
  obtain rfl := Except.ok.inj answer
  have minted := mintRotatedToken_ok mint
  rw [← mintAttachId_entropy taken, ← vacate_entropy left, ← onRegistry_entropy counted] at minted
  exact minted

theorem renewLease_entropy (h : SessionHost) (a : AttachId) (now : MonotonicMs) : (h.renewLease a now).entropy = h.entropy := by
  unfold renewLease
  split <;> rfl

theorem moveControl_entropy (h : SessionHost) (s : SessionId) (previous : Option AttachId) (target : AttachId)
    (newDigest : ControlTokenDigest) (now : MonotonicMs) :
    (h.moveControl s previous target newDigest now).entropy = h.entropy := by
  unfold moveControl
  simp only [renewLease_entropy]
  split <;> simp only [renewLease_entropy] <;> rfl

theorem transferControl_token {generation : Nat} {authority : ControlAuthority} {target : AttachId} {t : Transferred}
    (run : transferControl digest s generation authority target now h = (.ok t, h')) :
    h.entropy.fills32 = some t.delivery.token.bytes :: h'.entropy.fills32 := by
  unfold transferControl at run
  obtain ⟨session, -, run⟩ := ask_bind_ok run
  obtain ⟨-, run⟩ := refuseIf_bind_ok run
  obtain ⟨authorized, -, run⟩ := ask_bind_ok run
  obtain ⟨st, -, run⟩ := ask_bind_ok run
  obtain ⟨⟨previous, expired⟩, -, run⟩ := ask_bind_ok run
  obtain ⟨token, h₁, mint, run⟩ := bind_ok run
  obtain ⟨vacated, h₂, left, run⟩ := bind_ok run
  obtain ⟨session, h₃, counted, run⟩ := bind_ok run
  obtain ⟨_, -, run⟩ := ask_bind_ok run
  obtain ⟨answer, rfl⟩ := Prod.mk.inj run
  obtain rfl := Except.ok.inj answer
  have minted := mintRotatedToken_ok mint
  rw [← vacate_entropy left, ← onRegistry_entropy counted] at minted
  rw [moveControl_entropy]
  exact minted

theorem perform_minted {call : Call} {x : Answer} {token : ControlToken} (run : perform digest call h = (.ok x, h'))
    (minted : call.op.minted x = some token) : h.entropy.fills32 = some token.bytes :: h'.entropy.fills32 := by
  obtain ⟨op, now⟩ := call
  cases op with
  | create request kind =>
    obtain ⟨c, h₁, made, done⟩ := bind_ok run
    obtain ⟨answer, rfl⟩ := Prod.mk.inj done
    obtain rfl := Except.ok.inj answer
    obtain rfl := Option.some.inj minted
    exact createKind_token made
  | claimController s generation presented =>
    obtain ⟨c, h₁, made, done⟩ := bind_ok run
    obtain ⟨answer, rfl⟩ := Prod.mk.inj done
    obtain rfl := Except.ok.inj answer
    obtain rfl := Option.some.inj minted
    exact claimController_token made
  | transferControl s generation authority target =>
    obtain ⟨t, h₁, made, done⟩ := bind_ok run
    obtain ⟨answer, rfl⟩ := Prod.mk.inj done
    obtain rfl := Except.ok.inj answer
    obtain rfl := Option.some.inj minted
    exact transferControl_token made
  | _ => cases minted

/-- No value that is still to come has been issued, and none was issued twice. -/
structure Unspent (told : SessionId → List Label) (h : SessionHost) : Prop where
  coming : (h.entropy.fills32.filterMap id).Nodup
  fresh : ∀ s, ∀ token ∈ issued (told s), some token.bytes ∉ h.entropy.fills32
  once : ∀ s, (issued (told s)).Nodup

theorem Unspent.performed {told : SessionId → List Label} {call : Call} {answer : Except LeaseRefusal Answer}
    (unspent : Unspent told h) (sound : h.Sound) (run : perform digest call h = (answer, h')) :
    Unspent (fun s => told s ++ Event.told ⟨call, answer⟩ s) h' := by
  have moves : Moves digest _ h h' := perform_moves sound run
  have drains := moves.drains
  have kept (none : ∀ s, issued (Event.told ⟨call, answer⟩ s) = []) :
      Unspent (fun s => told s ++ Event.told ⟨call, answer⟩ s) h' := by
    refine ⟨unspent.coming.sublist (drains.sublist.filterMap id), fun s token inside => ?_, fun s => ?_⟩
    · rw [issued_append, none, List.append_nil] at inside
      exact fun later => unspent.fresh s token inside (drains.subset later)
    · rw [issued_append, none, List.append_nil]
      exact unspent.once s
  cases answer with
  | error e => exact kept fun s => rfl
  | ok x =>
    cases minted : call.op.minted x with
    | none =>
      refine kept fun s => (issued_told call.op x s).resolve_right ?_
      rintro ⟨token, impossible, -⟩
      rw [minted] at impossible
      cases impossible
    | some token =>
      have drawn := perform_minted run minted
      have coming := unspent.coming
      rw [drawn, List.filterMap_cons_some (f := id) rfl, List.nodup_cons] at coming
      have spent : some token.bytes ∉ h'.entropy.fills32 := fun later =>
        coming.1 (List.mem_filterMap.mpr ⟨_, later, rfl⟩)
      have tells (s : SessionId) : issued (Event.told ⟨call, .ok x⟩ s) = [] ∨ issued (Event.told ⟨call, .ok x⟩ s) = [token] := by
        rcases issued_told call.op x s with none | ⟨token', same, one⟩
        · exact .inl none
        · obtain rfl := Option.some.inj (minted.symm.trans same)
          exact .inr one
      refine ⟨coming.2, fun s token' inside later => ?_, fun s => ?_⟩
      · rw [issued_append, List.mem_append] at inside
        rcases inside with old | new
        · exact unspent.fresh s token' old (drains.subset later)
        · rcases tells s with none | one
          · rw [none] at new
            cases new
          · rw [one, List.mem_singleton] at new
            subst new
            exact spent later
      · rw [issued_append]
        rcases tells s with none | one
        · rw [none, List.append_nil]
          exact unspent.once s
        · rw [one, List.nodup_append]
          refine ⟨unspent.once s, by simp, fun a old b new same => ?_⟩
          rw [List.mem_singleton] at new
          subst same new
          refine unspent.fresh s a old ?_
          rw [drawn]
          exact List.mem_cons_self

theorem Unspent.run {told : SessionId → List Label} (unspent : Unspent told h) (sound : h.Sound) (calls : List Call) :
    Unspent (fun s => told s ++ (events digest h calls).flatMap (·.told s)) (after digest h calls) := by
  induction calls generalizing h told with
  | nil => simpa [events, after] using unspent
  | cons call calls ih =>
    have performed : perform digest call h = ((perform digest call h).1, (step digest h call).1) := rfl
    have moves : Moves digest _ h (step digest h call).1 := step_moves sound call
    have rest := ih (unspent.performed sound performed) moves.sound
    have joined : (fun s => told s ++ (events digest h (call :: calls)).flatMap (·.told s)) =
        fun s => (told s ++ Event.told ⟨call, (perform digest call h).1⟩ s) ++
          (events digest (step digest h call).1 calls).flatMap (·.told s) := by
      funext s
      rw [List.append_assoc]
      rfl
    rw [joined]
    exact rest

section Authority

variable {st : SessionLeaseState} {authority : ControlAuthority} {generation : Nat} {token : ControlToken}

def Held (h : SessionHost) (s : SessionId) (now : MonotonicMs) : Prop :=
  ∃ st a, h.sessions[s]? = some st ∧ st.liveController now = some a

theorem not_held_of_state (state : h.sessions[s]? = some st) (vacant : st.liveController now = none) : ¬ h.Held s now := by
  rintro ⟨st', a, state', held⟩
  obtain rfl := Option.some.inj (state.symm.trans state')
  rw [vacant] at held
  cases held

theorem not_held_of_terminal (sound : h.Sound) {snapshot : SessionSnapshot} (known : h.registry.snapshot s = some snapshot)
    (terminal : snapshot.state.isTerminal = true) : ¬ h.Held s now := by
  rintro ⟨st, a, state, held⟩
  obtain ⟨r, recorded, rfl⟩ := Option.map_eq_some_iff.mp known
  have unrecorded : (h.slot s).record = none := by
    rcases Option.or_eq_some_iff.mp recorded with live | ⟨none, -⟩
    · have alive := (sound.slots s).alive r live
      have eq : r.state.isTerminal = true := terminal
      rw [alive] at eq
      cases eq
    · exact none
  have settled := (sound.slots s).settled st unrecorded state
  rw [SessionLeaseState.liveController, settled.controller] at held
  cases held

theorem not_held_of_relation {relation : Relation} (operator : authority.operator = false) (lease : authority.lease = none)
    (resolved : resolveRelation s authority now h = .ok relation) : ¬ h.Held s now := by
  rcases resolveRelation_ok resolved with ⟨-, impossible⟩ | ⟨-, ⟨a, l, st, -, carried, -⟩ | ⟨token, st, -, -, -, state, vacant⟩⟩
  · rw [operator] at impossible
    cases impossible
  · rw [lease] at carried
    cases carried
  · exact not_held_of_state state vacant

theorem not_held_of_authorized {authorized : Authorized} (lease : authority.lease = none)
    (allowed : authorizeControl digest s generation authority now h = .ok authorized) : ¬ h.Held s now := by
  obtain ⟨-, ⟨a, l, st, -, carried, -⟩ | ⟨token, st, -, -, -, state, vacant, -⟩⟩ := authorizeControl_ok allowed
  · rw [lease] at carried
    cases carried
  · exact not_held_of_state state vacant

theorem abort_not_held {cause : ConsumerStopCause} {x : StopOutcome} (sound : h.Sound) (lease : authority.lease = none)
    (run : abort digest s generation authority cause now h = (.ok x, h')) : ¬ h.Held s now := by
  unfold abort at run
  obtain ⟨-, run⟩ := refuseIf_bind_ok run
  obtain ⟨snapshot, found, run⟩ := ask_bind_ok run
  split_ifs at run with terminal
  · exact not_held_of_terminal sound (findSnapshot_ok.mp found) terminal
  · obtain ⟨authorized, allowed, -⟩ := ask_bind_ok run
    exact not_held_of_authorized lease allowed

theorem transferControl_not_held {target : AttachId} {t : Transferred} (lease : authority.lease = none)
    (run : transferControl digest s generation authority target now h = (.ok t, h')) : ¬ h.Held s now := by
  unfold transferControl at run
  obtain ⟨session, -, run⟩ := ask_bind_ok run
  obtain ⟨-, run⟩ := refuseIf_bind_ok run
  obtain ⟨authorized, allowed, -⟩ := ask_bind_ok run
  exact not_held_of_authorized lease allowed

theorem detach_not_held {target : AttachId} {d : Detached} (sound : h.Sound) (operator : authority.operator = false)
    (lease : authority.lease = none) (run : detach digest s target authority now h = (.ok d, h')) : ¬ h.Held s now := by
  unfold detach at run
  obtain ⟨snapshot, found, run⟩ := ask_bind_ok run
  split_ifs at run with terminal own
  · exact not_held_of_terminal sound (findSnapshot_ok.mp found) terminal
  · rw [lease] at own
    cases own.2
  · obtain ⟨-, run⟩ := refuseIf_bind_ok run
    unfold detachOther at run
    obtain ⟨authorized, allowed, -⟩ := ask_bind_ok run
    obtain ⟨relation, resolved, -⟩ := Except.bind_ok allowed
    exact not_held_of_relation operator lease resolved

theorem claimController_not_held {c : Claimed} (run : claimController digest s generation token now h = (.ok c, h')) :
    ¬ h.Held s now := by
  unfold claimController at run
  obtain ⟨session, -, run⟩ := ask_bind_ok run
  obtain ⟨-, run⟩ := refuseIf_bind_ok run
  obtain ⟨-, run⟩ := refuseIf_bind_ok run
  obtain ⟨st, found, run⟩ := ask_bind_ok run
  obtain ⟨free, -⟩ := refuseIf_bind_ok run
  refine not_held_of_state (findState_ok.mp found) ?_
  cases expired : st.expiredController now with
  | none =>
    rw [expired] at free
    have nobody : st.controller = none := by simpa using free
    rw [SessionLeaseState.liveController, nobody]
    rfl
  | some l =>
    obtain ⟨a, controller, lease, due⟩ := SessionLeaseState.expiredController_some expired
    simp [SessionLeaseState.liveController, controller, lease, due]

end Authority

end SessionHost

def Op.byToken : Op → Option SessionId
  | .abort s _ authority _ | .transferControl s _ authority _ | .detach s _ authority =>
    if authority.operator = false ∧ authority.lease = none then some s else none
  | .claimController s _ _ => some s
  | _ => none

namespace SessionHost

open Mutation

variable {digest : ControlToken → ControlTokenDigest} {h h' : SessionHost} {s : SessionId}

theorem byToken_not_held {call : Call} {x : Answer} (sound : h.Sound) (acts : call.op.byToken = some s)
    (run : perform digest call h = (.ok x, h')) : ¬ h.Held s call.now := by
  obtain ⟨op, now⟩ := call
  cases op with
  | abort s' generation authority cause =>
    simp only [Op.byToken] at acts
    split_ifs at acts with bare
    obtain rfl := Option.some.inj acts
    obtain ⟨answer, h₁, done, -⟩ := bind_ok run
    exact abort_not_held sound bare.2 done
  | transferControl s' generation authority target =>
    simp only [Op.byToken] at acts
    split_ifs at acts with bare
    obtain rfl := Option.some.inj acts
    obtain ⟨answer, h₁, done, -⟩ := bind_ok run
    exact transferControl_not_held bare.2 done
  | detach s' target authority =>
    simp only [Op.byToken] at acts
    split_ifs at acts with bare
    obtain rfl := Option.some.inj acts
    obtain ⟨answer, h₁, done, -⟩ := bind_ok run
    exact detach_not_held sound bare.1 bare.2 done
  | claimController s' generation token =>
    obtain rfl := Option.some.inj acts
    obtain ⟨answer, h₁, done, -⟩ := bind_ok run
    exact claimController_not_held done
  | _ => cases acts

theorem keeps_slot {told : List Label} (keeps : Slot.Keeps digest told (h.slot s)) (token : ControlToken)
    (verifies : h.verifyControlToken digest s token = true) :
    controlRetired told = false ∧ ∃ last, (issued told).getLast? = some last ∧ digest last = digest token := by
  unfold verifyControlToken at verifies
  obtain ⟨st, state, known⟩ := (Option.any_eq_true _ _).mp verifies
  have kept := keeps st state
  split_ifs at kept with retired
  · exact absurd kept.1 (Slot.not_retired_of_matches known)
  · obtain ⟨last, latest, current⟩ := kept
    rw [SessionLeaseState.tokenMatches, current] at known
    exact ⟨by simpa using retired, last, latest, by simpa using known⟩

theorem after_keeps (sound : h.Sound) {told : List Label} (keeps : Slot.Keeps digest told (h.slot s)) (calls : List Call) :
    Slot.Keeps digest (told ++ (events digest h calls).flatMap (·.told s)) ((after digest h calls).slot s) :=
  keeps.path ((run_moves sound calls).paths s)

theorem keeps_empty (registryLimits : RegistryLimits) (sizeOfRecord : Nat) (registryEntropy : Entropy) (limits : LeaseLimits)
    (entropy : Entropy) : Slot.Keeps digest [] ((empty registryLimits sizeOfRecord registryEntropy limits entropy).slot s) := by
  intro st state
  simp [slot, empty] at state

end SessionHost

end Bitty.Daemon
