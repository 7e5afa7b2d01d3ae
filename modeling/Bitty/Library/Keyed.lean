import Mathlib

/-! Lists of entries with distinct keys, as a model of ordered maps. -/

namespace Keyed

variable {α β : Type} {k a : α} {v : β} {entries : List (α × β)}

def total (p : α → Bool) (w : β → Nat) (entries : List (α × β)) : Nat := ((entries.filter fun e => p e.1).map fun e => w e.2).sum

theorem total_cons (p : α → Bool) (w : β → Nat) (e : α × β) (rest : List (α × β)) :
    total p w (e :: rest) = (if p e.1 then w e.2 else 0) + total p w rest := by
  unfold total
  by_cases selected : p e.1 = true
  · simp [selected]
  · simp [selected]

variable {entries' : List (α × β)}

theorem total_perm (p : α → Bool) (w : β → Nat) (perm : entries.Perm entries') :
    total p w entries = total p w entries' := ((perm.filter _).map _).sum_nat

theorem total_le_of_sublist (p : α → Bool) (w : β → Nat) (sub : entries'.Sublist entries) :
    total p w entries' ≤ total p w entries := by
  induction sub with
  | slnil => exact Nat.le_refl _
  | cons e _ ih =>
    rw [total_cons]
    exact Nat.le_trans ih (Nat.le_add_left _ _)
  | cons_cons e _ ih =>
    rw [total_cons, total_cons]
    exact Nat.add_le_add_left ih _

theorem exists_pos_of_total_pos {p : α → Bool} {w : β → Nat} (positive : 0 < total p w entries) :
    ∃ e ∈ entries, p e.1 = true ∧ 0 < w e.2 := by
  induction entries with
  | nil => simp [total] at positive
  | cons e rest ih =>
    rw [total_cons] at positive
    by_cases here : p e.1 = true ∧ 0 < w e.2
    · exact ⟨e, List.mem_cons_self, here⟩
    · have later : 0 < total p w rest := by
        by_cases selected : p e.1 = true
        · rw [if_pos selected] at positive
          have none : ¬0 < w e.2 := fun some => here ⟨selected, some⟩
          omega
        · rw [if_neg selected] at positive
          omega
      obtain ⟨e', member, found⟩ := ih later
      exact ⟨e', List.mem_cons_of_mem _ member, found⟩

variable [DecidableEq α]

def find (k : α) (entries : List (α × β)) : Option β := (entries.find? fun e => e.1 = k).map (·.2)

def modify (k : α) (f : β → β) (entries : List (α × β)) : List (α × β) :=
  entries.map fun e => if e.1 = k then (e.1, f e.2) else e

theorem keys_modify (k : α) (f : β → β) (entries : List (α × β)) :
    (modify k f entries).map (·.1) = entries.map (·.1) := by
  rw [modify, List.map_map]
  refine List.map_congr_left fun e _ => ?_
  dsimp only [Function.comp]
  split <;> rfl

theorem find_cons (e : α × β) (rest : List (α × β)) : find k (e :: rest) = if e.1 = k then some e.2 else find k rest := by
  unfold find
  by_cases here : e.1 = k
  · simp [here]
  · simp [here]

theorem find_eq_none : find k entries = none ↔ k ∉ entries.map (·.1) := by
  induction entries with
  | nil => simp [find]
  | cons e rest ih =>
    rw [find_cons, List.map_cons, List.mem_cons, not_or, ← ih]
    by_cases here : e.1 = k
    · simp [here]
    · simp [here, Ne.symm here]

theorem mem_of_find (found : find k entries = some v) : (k, v) ∈ entries := by
  obtain ⟨e, here, rfl⟩ := Option.map_eq_some_iff.mp found
  have same : e.1 = k := by simpa using List.find?_some here
  rw [← same]
  exact List.mem_of_find?_eq_some here

theorem find_of_mem (once : (entries.map (·.1)).Nodup) (member : (k, v) ∈ entries) : find k entries = some v := by
  induction entries with
  | nil => cases member
  | cons e rest ih =>
    obtain ⟨fresh, others⟩ := List.nodup_cons.mp once
    rw [find_cons]
    rcases List.mem_cons.mp member with rfl | later
    · exact if_pos rfl
    · have apart : e.1 ≠ k := fun same => fresh (List.mem_map.mpr ⟨(k, v), later, same.symm⟩)
      rw [if_neg apart]
      exact ih others later

theorem find_modify (f : β → β) : find a (modify k f entries) = if k = a then (find a entries).map f else find a entries := by
  induction entries with
  | nil => simp [find, modify]
  | cons e rest ih =>
    unfold modify at ih ⊢
    rw [List.map_cons, find_cons, find_cons, ih]
    by_cases atKey : e.1 = k
    · rw [if_pos atKey]
      by_cases here : e.1 = a
      · simp [here, ← atKey]
      · have apart : k ≠ a := atKey ▸ here
        simp [here, apart]
    · rw [if_neg atKey]
      by_cases here : e.1 = a
      · have apart : k ≠ a := fun same => atKey (here.trans same.symm)
        simp [here, apart]
      · simp [here]

theorem modify_of_absent (f : β → β) (absent : find k entries = none) : modify k f entries = entries := by
  have fresh := find_eq_none.mp absent
  refine (List.map_congr_left fun e member => ?_).trans (List.map_id entries)
  have apart : e.1 ≠ k := fun same => fresh (List.mem_map.mpr ⟨e, member, same⟩)
  exact if_neg apart

theorem modify_of_fixed (once : (entries.map (·.1)).Nodup) {f : β → β} (fixed : ∀ v, find k entries = some v → f v = v) :
    modify k f entries = entries := by
  refine (List.map_congr_left fun e member => ?_).trans (List.map_id entries)
  split
  next here =>
    rw [fixed e.2 (find_of_mem once (here ▸ member))]
    rfl
  next => rfl

theorem find_perm (once : (entries.map (·.1)).Nodup) (perm : entries.Perm entries') :
    find k entries = find k entries' := by
  have once' := (perm.map (·.1)).nodup_iff.mp once
  cases found : find k entries with
  | none =>
    refine (find_eq_none.mpr fun member => ?_).symm
    exact find_eq_none.mp found ((perm.map (·.1)).mem_iff.mpr member)
  | some v => exact (find_of_mem once' (perm.mem_iff.mp (mem_of_find found))).symm

theorem find_filter_ne (k a : α) : find a (entries.filter fun e => e.1 ≠ k) = if k = a then none else find a entries := by
  induction entries with
  | nil => simp [find]
  | cons e rest ih =>
    rw [find_cons]
    by_cases gone : e.1 = k
    · rw [List.filter_cons_of_neg (by simpa using gone), ih]
      by_cases here : k = a
      · simp [here]
      · have apart : e.1 ≠ a := gone ▸ here
        simp [here, apart]
    · rw [List.filter_cons_of_pos (by simpa using gone), find_cons, ih]
      by_cases here : e.1 = a
      · have apart : k ≠ a := fun same => gone (here.trans same.symm)
        simp [here, apart]
      · simp [here]

def insert (k : α) (v : β) (entries : List (α × β)) : List (α × β) := (k, v) :: entries.filter fun e => e.1 ≠ k

def erase (k : α) (entries : List (α × β)) : List (α × β) := entries.filter fun e => e.1 ≠ k

theorem find_erase : find a (erase k entries) = if k = a then none else find a entries := find_filter_ne k a

theorem nodup_erase (once : (entries.map (·.1)).Nodup) : ((erase k entries).map (·.1)).Nodup :=
  once.sublist (List.filter_sublist.map _)

theorem nodup_insert (once : (entries.map (·.1)).Nodup) : ((insert k v entries).map (·.1)).Nodup := by
  have absent : find k (erase k entries) = none := by
    rw [find_erase]
    exact if_pos rfl
  exact List.nodup_cons.mpr ⟨find_eq_none.mp absent, nodup_erase once⟩

theorem length_erase_le : (erase k entries).length ≤ entries.length := List.length_filter_le _ _

theorem length_insert_le : (insert k v entries).length ≤ entries.length + 1 := Nat.succ_le_succ length_erase_le

theorem length_insert_of_find (here : (find k entries).isSome) : (insert k v entries).length ≤ entries.length := by
  obtain ⟨old, found⟩ := Option.isSome_iff_exists.mp here
  have fewer : (erase k entries).length < entries.length :=
    List.length_filter_lt_length_iff_exists.mpr ⟨_, mem_of_find found, by simp⟩
  exact Nat.succ_le_of_lt fewer

theorem total_modify (p : α → Bool) (w : β → Nat) (f : β → β) (once : (entries.map (·.1)).Nodup)
    (found : find k entries = some v) : total p w (modify k f entries) + (if p k then w v else 0) =
      total p w entries + (if p k then w (f v) else 0) := by
  induction entries with
  | nil => simp [find] at found
  | cons e rest ih =>
    obtain ⟨fresh, others⟩ := List.nodup_cons.mp once
    rw [find_cons] at found
    have expand : modify k f (e :: rest) = (if e.1 = k then (e.1, f e.2) else e) :: modify k f rest := rfl
    rw [expand, total_cons, total_cons]
    by_cases here : e.1 = k
    · rw [if_pos here] at found
      obtain rfl := Option.some.inj found
      have absent : find k rest = none := find_eq_none.mpr (here ▸ fresh)
      rw [if_pos here, modify_of_absent f absent, here]
      dsimp only
      omega
    · rw [if_neg here] at found
      have rest := ih others found
      rw [if_neg here]
      omega

end Keyed
