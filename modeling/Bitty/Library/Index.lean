import Bitty.Library.TreeMap

/-! Maps that are kept beside another map: an index that leads from what an entry carries to its
key, and a tally of the entries that carry the same. -/

open Std

variable {κ β ι : Type} {ckey : κ → κ → Ordering} [TransCmp ckey] [LawfulEqCmp ckey]
variable {cindex : ι → ι → Ordering} [TransCmp cindex] [LawfulEqCmp cindex]
variable {t : ExtTreeMap κ β ckey} {k : κ} {v : β} {read : β → ι}

/-- The index leads from what an entry carries to the key of that entry, and from nothing else. -/
def IsIndex (t : ExtTreeMap κ β ckey) (read : β → ι) (index : ExtTreeMap ι κ cindex) : Prop :=
  ∀ i k, index[i]? = some k ↔ ∃ v, t[k]? = some v ∧ read v = i

namespace IsIndex

variable {index : ExtTreeMap ι κ cindex}

omit [LawfulEqCmp ckey] [LawfulEqCmp cindex] in
theorem empty : IsIndex (∅ : ExtTreeMap κ β ckey) read (∅ : ExtTreeMap ι κ cindex) := by
  intro i k
  simp

omit [LawfulEqCmp ckey] [LawfulEqCmp cindex] in
theorem find (held : IsIndex t read index) (here : t[k]? = some v) : index[read v]? = some k :=
  (held (read v) k).mpr ⟨v, here, rfl⟩

omit [LawfulEqCmp ckey] [LawfulEqCmp cindex] in
theorem entry (held : IsIndex t read index) {i : ι} (here : index[i]? = some k) : ∃ v, t[k]? = some v ∧ read v = i :=
  (held i k).mp here

omit [LawfulEqCmp ckey] [LawfulEqCmp cindex] in
theorem unique (held : IsIndex t read index) {k' : κ} {v' : β} (here : t[k]? = some v) (there : t[k']? = some v')
    (same : read v = read v') : k = k' := by
  have first := held.find here
  have second := held.find there
  rw [same, second] at first
  exact (Option.some.inj first).symm

variable [DecidableEq κ] [DecidableEq ι]

theorem insert (held : IsIndex t read index) (fresh : t[k]? = none) (free : index[read v]? = none) :
    IsIndex (t.insert k v) read (index.insert (read v) k) := by
  intro i k'
  rw [TreeMap.find_insert]
  split_ifs with same
  · constructor
    · intro eq
      cases eq
      exact ⟨v, by rw [TreeMap.find_insert, if_pos rfl], same⟩
    · rintro ⟨v', here, carried⟩
      rw [TreeMap.find_insert] at here
      split_ifs at here with there
      · rw [there]
      · have taken := held.find here
        rw [carried, ← same, free] at taken
        cases taken
  · rw [held i k']
    constructor
    · rintro ⟨v', here, carried⟩
      have other : k ≠ k' := by
        intro eq
        rw [← eq, fresh] at here
        cases here
      exact ⟨v', by rw [TreeMap.find_insert, if_neg other]; exact here, carried⟩
    · rintro ⟨v', here, carried⟩
      rw [TreeMap.find_insert] at here
      split_ifs at here with there
      · cases here
        exact absurd carried same
      · exact ⟨v', here, carried⟩

theorem erase (held : IsIndex t read index) (here : t[k]? = some v) : IsIndex (t.erase k) read (index.erase (read v)) := by
  intro i k'
  rw [TreeMap.find_erase]
  split_ifs with same
  · constructor
    · intro eq
      cases eq
    · rintro ⟨v', there, carried⟩
      rw [TreeMap.find_erase] at there
      split_ifs at there with gone
      exact absurd (held.unique here there (same.trans carried.symm)) gone
  · rw [held i k']
    constructor
    · rintro ⟨v', there, carried⟩
      have other : k ≠ k' := by
        intro eq
        rw [← eq, here] at there
        cases there
        exact same carried
      exact ⟨v', by rw [TreeMap.find_erase, if_neg other]; exact there, carried⟩
    · rintro ⟨v', there, carried⟩
      rw [TreeMap.find_erase] at there
      split_ifs at there with gone
      exact ⟨v', there, carried⟩

omit [DecidableEq ι] [LawfulEqCmp cindex] in
theorem modify (held : IsIndex t read index) {f : β → β} (same : ∀ v, read (f v) = read v) :
    IsIndex (t.modify k f) read index := by
  intro i k'
  rw [held i k', TreeMap.find_modify]
  split_ifs with here
  · constructor
    · rintro ⟨v', there, carried⟩
      exact ⟨f v', by rw [there]; rfl, (same v').trans carried⟩
    · rintro ⟨v', there, carried⟩
      obtain ⟨old, found, rfl⟩ := Option.map_eq_some_iff.mp there
      exact ⟨old, found, (same old).symm.trans carried⟩
  · rfl

end IsIndex

variable [DecidableEq ι]

def tally (t : ExtTreeMap κ β ckey) (read : β → ι) (i : ι) : Nat := (t.filter fun _ v => decide (read v = i)).size

def IsTally (t : ExtTreeMap κ β ckey) (read : β → ι) (counts : ExtTreeMap ι Nat cindex) : Prop :=
  ∀ i, counts[i]? = if tally t read i = 0 then none else some (tally t read i)

def countUp (i : ι) (counts : ExtTreeMap ι Nat cindex) : ExtTreeMap ι Nat cindex := counts.insert i (counts[i]?.getD 0 + 1)

/-- One less at a value; what comes to zero is removed. -/
def countDown (i : ι) (counts : ExtTreeMap ι Nat cindex) : ExtTreeMap ι Nat cindex :=
  match counts[i]? with
  | none => counts
  | some n => if n - 1 = 0 then counts.erase i else counts.insert i (n - 1)

section Tally

variable (read)

omit [LawfulEqCmp ckey] in
theorem tally_empty (i : ι) : tally (∅ : ExtTreeMap κ β ckey) read i = 0 := by
  unfold tally
  rw [← ExtTreeMap.length_toList, ExtTreeMap.toList_filter]
  simp

variable [DecidableEq κ]

theorem tally_insert (fresh : t[k]? = none) (i : ι) :
    tally (t.insert k v) read i = tally t read i + if read v = i then 1 else 0 := by
  unfold tally
  rw [TreeMap.size_filter_insert _ _ _ _ fresh]
  simp only [decide_eq_true_eq]

theorem tally_erase (here : t[k]? = some v) (i : ι) :
    tally (t.erase k) read i + (if read v = i then 1 else 0) = tally t read i := by
  have fresh : (t.erase k)[k]? = none := by rw [TreeMap.find_erase, if_pos rfl]
  have before : (t.erase k).insert k v = t := by
    refine ExtTreeMap.ext_getElem? fun a => ?_
    rw [TreeMap.find_insert, TreeMap.find_erase]
    split_ifs with same
    · rw [← same, here]
    · rfl
  have added := tally_insert read (v := v) fresh i
  rw [before] at added
  exact added.symm

theorem tally_modify {f : β → β} (same : ∀ v, read (f v) = read v) (i : ι) : tally (t.modify k f) read i = tally t read i :=
  TreeMap.size_filter_modify _ _ _ _ fun v => by rw [same]

theorem tally_pos (here : t[k]? = some v) : 0 < tally t read (read v) := by
  have balance := tally_erase read here (read v)
  rw [if_pos rfl] at balance
  omega

end Tally

namespace IsTally

variable {counts : ExtTreeMap ι Nat cindex}

omit [LawfulEqCmp ckey] [LawfulEqCmp cindex] in
theorem empty : IsTally (∅ : ExtTreeMap κ β ckey) read (∅ : ExtTreeMap ι Nat cindex) := by
  intro i
  rw [if_pos (tally_empty read i)]
  simp

omit [TransCmp ckey] [LawfulEqCmp ckey] [LawfulEqCmp cindex] in
theorem getD (held : IsTally t read counts) (i : ι) : counts[i]?.getD 0 = tally t read i := by
  rw [held i]
  split_ifs with zero
  · exact zero.symm
  · rfl

variable [DecidableEq κ]

theorem insert (held : IsTally t read counts) (fresh : t[k]? = none) :
    IsTally (t.insert k v) read (countUp (read v) counts) := by
  intro i
  rw [countUp, TreeMap.find_insert, held.getD, tally_insert _ fresh]
  by_cases same : read v = i
  · have positive : ¬tally t read i + 1 = 0 := Nat.succ_ne_zero _
    rw [if_pos same, if_pos same, if_neg positive, same]
  · rw [if_neg same, if_neg same, Nat.add_zero]
    exact held i

theorem erase (held : IsTally t read counts) (here : t[k]? = some v) :
    IsTally (t.erase k) read (countDown (read v) counts) := by
  have counted : counts[read v]? = some (tally t read (read v)) := by
    rw [held, if_neg (tally_pos _ here).ne']
  intro i
  have balance := tally_erase read here i
  simp only [countDown, counted]
  by_cases same : read v = i
  · rw [if_pos same] at balance
    rw [same]
    split_ifs with last gone gone
    · rw [TreeMap.find_erase, if_pos rfl]
    · omega
    · omega
    · rw [TreeMap.find_insert, if_pos rfl]
      congr 1
      omega
  · rw [if_neg same, Nat.add_zero] at balance
    rw [balance, ← held i]
    split_ifs
    · rw [TreeMap.find_erase, if_neg same]
    · rw [TreeMap.find_insert, if_neg same]

omit [LawfulEqCmp cindex] in
theorem modify (held : IsTally t read counts) {f : β → β} (same : ∀ v, read (f v) = read v) :
    IsTally (t.modify k f) read counts := by
  intro i
  rw [tally_modify _ same]
  exact held i

end IsTally
