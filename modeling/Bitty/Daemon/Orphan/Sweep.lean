import Bitty.Daemon.Orphan.Step

namespace Bitty.Daemon

open Std Text

namespace OrphanJournal

open Mutation

variable {j j' : OrphanJournal} {s : SessionId} {r : OrphanRecord} {disk : Disk} {now : UInt64}
variable {around : Surroundings} {live : SessionId → Bool} {p p' : Pass}

def Moves : OrphanJournal → OrphanJournal → Prop := Relation.ReflTransGen fun j j' => ∃ s, Move s j j'

theorem Moves.sync (moves : Moves j j') (sync : j.InSync) : j'.InSync := by
  induction moves with
  | refl => exact sync
  | tail _ last ih =>
    obtain ⟨s, move⟩ := last
    exact move.sync ih

/-- The probe's observation lets the reaper be called for a record. -/
def Exact (around : Surroundings) (s : SessionId) (r : OrphanRecord) (verified : VerifiedOrphan) : Prop :=
  classify r around.bootId (around.observe s) = .exact verified

def Stale (around : Surroundings) (s : SessionId) (r : OrphanRecord) : Prop :=
  classify r around.bootId (around.observe s) = .stale

structure Round (around : Surroundings) (live : SessionId → Bool) (s : SessionId) (p p' : Pass) : Prop where
  calls : p'.calls = p.calls ∨ ∃ r verified, p.journal.records[s]? = some r ∧ live s = false ∧
    Exact around s r verified ∧ p'.calls = p.calls ++ [(r, verified)]
  move : Move s p.journal p'.journal
  left : ∀ r, p.journal.records[s]? = some r → p'.journal.records[s]? = none →
    Stale around s r ∨ ∃ verified, Exact around s r verified ∧ around.reap s = .swept ∧ (r, verified) ∈ p'.calls

variable {res : Except JournalError Unit}

theorem onJournal_cases {m : JournalM Unit} {count : PassM Unit}
    (counts : ∀ p, (count p).2.journal = p.journal ∧ (count p).2.calls = p.calls)
    (run : (do onJournal m; count : PassM Unit) p = (res, p')) :
    p'.calls = p.calls ∧ ∃ res', m p.journal = (res', p'.journal) := by
  rcases bind_cases run with ⟨e, first, -⟩ | ⟨_, p₁, first, last⟩
  · obtain ⟨-, rfl⟩ := Prod.mk.inj first
    exact ⟨rfl, _, rfl⟩
  · obtain ⟨-, rfl⟩ := Prod.mk.inj first
    obtain ⟨journal, calls⟩ := counts { p with journal := (m p.journal).2 }
    rw [last] at journal calls
    exact ⟨calls, (m p.journal).1, Prod.ext rfl journal.symm⟩

theorem quarantine_stays (sync : j.InSync) (here : j.records[s]? = some r)
    (run : quarantine disk r now j = (res, j')) : j'.records[s]? ≠ none := by
  rcases quarantine_cases sync here run with rfl | ⟨text, -, rfl⟩
  · rw [here]
    exact Option.some_ne_none _
  · rw [records_put, if_pos rfl]
    exact Option.some_ne_none _

theorem reapSession_round (sync : p.journal.InSync)
    (run : reapSession disk around now live s p = (res, p')) : Round around live s p p' := by
  unfold reapSession at run
  split at run
  · obtain ⟨rfl, rfl⟩ := Prod.mk.inj run
    exact ⟨.inl rfl, .stay, fun r here gone => by rw [here] at gone; cases gone⟩
  · rename_i dead
    have dead : live s = false := by simpa using dead
    split at run
    · rename_i absent
      obtain ⟨rfl, rfl⟩ := Prod.mk.inj run
      exact ⟨.inl rfl, .stay, fun r here _ => by rw [absent] at here; cases here⟩
    · rename_i r here
      have only {r' : OrphanRecord} (here' : p.journal.records[s]? = some r') : r = r' := by
        rw [here] at here'
        exact Option.some.inj here'
      split at run
      · rename_i stale
        obtain ⟨calls, res', removed⟩ := onJournal_cases (fun _ => ⟨rfl, rfl⟩) run
        refine ⟨.inl calls, remove_move removed, fun r' here' _ => ?_⟩
        obtain rfl := only here'
        exact .inl stale
      · obtain ⟨calls, res', quarantined⟩ := onJournal_cases (fun _ => ⟨rfl, rfl⟩) run
        exact ⟨.inl calls, quarantine_move sync here quarantined,
          fun r' _ gone => absurd gone (quarantine_stays sync here quarantined)⟩
      · rename_i verified exactly
        dsimp only at run
        have called : Exact around s r verified := exactly
        split at run
        · rename_i swept
          obtain ⟨calls, res', removed⟩ := onJournal_cases (fun _ => ⟨rfl, rfl⟩) run
          refine ⟨.inr ⟨r, verified, here, dead, called, calls⟩, remove_move removed, fun r' here' _ => ?_⟩
          obtain rfl := only here'
          exact .inr ⟨verified, called, swept, by simp [calls]⟩
        · obtain ⟨calls, res', quarantined⟩ := onJournal_cases (fun _ => ⟨rfl, rfl⟩) run
          exact ⟨.inr ⟨r, verified, here, dead, called, calls⟩, quarantine_move sync here quarantined,
            fun r' _ gone => absurd gone (quarantine_stays sync here quarantined)⟩
        · obtain ⟨rfl, rfl⟩ := Prod.mk.inj run
          exact ⟨.inr ⟨r, verified, here, dead, called, rfl⟩, .stay, fun r' here' gone => by
            rw [here'] at gone; cases gone⟩

structure Swept (around : Surroundings) (live : SessionId → Bool) (ids : List SessionId) (p p' : Pass) : Prop where
  earlier : ∀ call ∈ p.calls, call ∈ p'.calls
  calls : ∀ call ∈ p'.calls, call ∈ p.calls ∨
    ∃ s ∈ ids, p.journal.records[s]? = some call.1 ∧ live s = false ∧ Exact around s call.1 call.2
  moves : Moves p.journal p'.journal
  other : ∀ s ∉ ids, p'.journal.records[s]? = p.journal.records[s]?
  left : ∀ s r, p.journal.records[s]? = some r → p'.journal.records[s]? = none →
    Stale around s r ∨ ∃ verified, Exact around s r verified ∧ around.reap s = .swept ∧ (r, verified) ∈ p'.calls

theorem Swept.nothing : Swept around live ids p p where
  earlier := fun _ here => here
  calls := fun _ here => .inl here
  moves := .refl
  other := fun _ _ => rfl
  left := by
    intro s r here gone
    rw [here] at gone
    cases gone

theorem Round.earlier (round : Round around live s p p') : ∀ call ∈ p.calls, call ∈ p'.calls := by
  intro call here
  rcases round.calls with same | ⟨r, verified, -, -, -, more⟩
  · exact same ▸ here
  · exact more ▸ List.mem_append_left _ here

theorem Round.swept (round : Round around live s p p') (ids : List SessionId) : Swept around live (s :: ids) p p' where
  earlier := round.earlier
  calls := by
    intro call here
    rcases round.calls with same | ⟨r, verified, found, dead, called, more⟩
    · exact .inl (same ▸ here)
    · rw [more, List.mem_append, List.mem_singleton] at here
      rcases here with before | rfl
      · exact .inl before
      · exact .inr ⟨s, List.mem_cons_self, found, dead, called⟩
  moves := .single ⟨s, round.move⟩
  other := fun a outside => round.move.other fun same => outside (same ▸ List.mem_cons_self)
  left := by
    intro a r here gone
    by_cases same : a = s
    · subst same
      exact round.left r here gone
    · rw [round.move.other same, here] at gone
      cases gone

theorem Round.then_swept {ids : List SessionId} {p₁ : Pass} (first : Round around live s p p₁) (fresh : s ∉ ids)
    (later : Swept around live ids p₁ p') : Swept around live (s :: ids) p p' where
  earlier := fun call here => later.earlier call (first.earlier call here)
  calls := by
    intro call here
    rcases later.calls call here with before | ⟨a, member, found, dead, called⟩
    · exact (first.swept ids).calls call before
    · have other : a ≠ s := fun same => fresh (same ▸ member)
      rw [first.move.other other] at found
      exact .inr ⟨a, List.mem_cons_of_mem _ member, found, dead, called⟩
  moves := .head ⟨s, first.move⟩ later.moves
  other := by
    intro a outside
    rw [later.other a fun member => outside (List.mem_cons_of_mem _ member)]
    exact first.move.other fun same => outside (same ▸ List.mem_cons_self)
  left := by
    intro a r here gone
    by_cases same : a = s
    · subst same
      rw [later.other a fresh] at gone
      rcases first.left r here gone with stale | ⟨verified, called, swept, logged⟩
      · exact .inl stale
      · exact .inr ⟨verified, called, swept, later.earlier _ logged⟩
    · rw [← first.move.other same] at here
      exact later.left a r here gone

theorem reapSessions_swept {ids : List SessionId} (nodup : ids.Nodup) (sync : p.journal.InSync)
    (run : reapSessions disk around now live ids p = (res, p')) :
    Swept around live ids p p' := by
  induction ids generalizing p with
  | nil =>
    obtain ⟨rfl, rfl⟩ := Prod.mk.inj run
    exact .nothing
  | cons s ids ih =>
    obtain ⟨fresh, distinct⟩ := List.nodup_cons.mp nodup
    rcases bind_cases run with ⟨e, first, -⟩ | ⟨_, p₁, first, later⟩
    · exact (reapSession_round sync first).swept ids
    · have round := reapSession_round sync first
      exact round.then_swept fresh (ih distinct (round.move.sync sync) later)

theorem reapExcluding_swept (sync : j.InSync) (disk : Disk) (around : Surroundings) (now : UInt64)
    (live : SessionId → Bool) :
    Swept around live j.records.keys { journal := j } (reapExcluding disk around now live j).2 := by
  have distinct : j.records.keys.Nodup := ExtTreeMap.nodup_keys
  exact reapSessions_swept distinct sync (Prod.mk.eta).symm

end OrphanJournal

end Bitty.Daemon
