import Mathlib

/-! Lookups in ordered maps whose comparison decides equality, and the sizes of their parts. -/

namespace TreeMap

open Std

variable {α β : Type} {cmp : α → α → Ordering} [TransCmp cmp] [LawfulEqCmp cmp] [DecidableEq α]
variable (t : ExtTreeMap α β cmp) (k a : α) (v : β)

theorem find_insert : (t.insert k v)[a]? = if k = a then some v else t[a]? := by
  rw [ExtTreeMap.getElem?_insert]
  simp only [LawfulEqCmp.compare_eq_iff_eq]

theorem find_erase : (t.erase k)[a]? = if k = a then none else t[a]? := by
  rw [ExtTreeMap.getElem?_erase]
  simp only [LawfulEqCmp.compare_eq_iff_eq]

theorem find_foldl_erase (keys : List α) :
    (keys.foldl (fun t k => t.erase k) t)[a]? = if a ∈ keys then none else t[a]? := by
  induction keys generalizing t with
  | nil => simp
  | cons first rest ih =>
    rw [List.foldl_cons, ih, find_erase]
    by_cases same : first = a
    · subst same
      simp
    · have other : a ≠ first := Ne.symm same
      simp [same, other]

theorem find_modify (f : β → β) : (t.modify k f)[a]? = if k = a then t[a]?.map f else t[a]? := by
  rw [ExtTreeMap.getElem?_modify]
  simp only [LawfulEqCmp.compare_eq_iff_eq]
  split_ifs with same
  · rw [same]
  · rfl

omit [DecidableEq α] in
theorem find_filter (p : α → β → Bool) : (t.filter p)[a]? = t[a]?.filter (p a) := ExtTreeMap.getElem?_filter'

omit [LawfulEqCmp cmp] [DecidableEq α] in
theorem mem_iff : a ∈ t ↔ ∃ v, t[a]? = some v := by
  rw [ExtTreeMap.mem_iff_isSome_getElem?, Option.isSome_iff_exists]

theorem filter_insert (p : α → β → Bool) :
    (t.insert k v).filter p = if p k v then (t.filter p).insert k v else (t.filter p).erase k := by
  refine ExtTreeMap.ext_getElem? fun a => ?_
  rw [find_filter, find_insert]
  by_cases chosen : p k v <;> by_cases same : k = a <;> simp [chosen, same, find_insert, find_erase]
  · simp [← same, chosen]
  · simp [← same, chosen]

theorem filter_erase (p : α → β → Bool) : (t.erase k).filter p = (t.filter p).erase k := by
  refine ExtTreeMap.ext_getElem? fun a => ?_
  rw [find_filter, find_erase, find_erase, find_filter]
  split_ifs <;> rfl

theorem size_filter_modify (p : α → β → Bool) (f : β → β) (same : ∀ v, p k (f v) = p k v) :
    ((t.modify k f).filter p).size = (t.filter p).size := by
  have modified : (t.modify k f).filter p = (t.filter p).modify k f := by
    refine ExtTreeMap.ext_getElem? fun a => ?_
    rw [find_filter, find_modify, find_modify, find_filter]
    split_ifs with eq
    · subst eq
      cases t[k]? with
      | none => rfl
      | some v =>
        simp only [Option.map_some, Option.filter_some, same]
        split_ifs <;> rfl
    · rfl
  rw [modified, ExtTreeMap.size_modify]

theorem size_filter_insert (p : α → β → Bool) (fresh : t[k]? = none) :
    ((t.insert k v).filter p).size = (t.filter p).size + if p k v then 1 else 0 := by
  have absent : (t.filter p).contains k = false := by
    rw [ExtTreeMap.contains_eq_isSome_getElem?, find_filter, fresh]
    rfl
  rw [filter_insert]
  split_ifs
  · rw [ExtTreeMap.size_insert, absent]
    rfl
  · rw [ExtTreeMap.size_erase, absent]
    rfl

theorem size_filter_erase_le (p : α → β → Bool) : ((t.erase k).filter p).size ≤ (t.filter p).size := by
  rw [filter_erase]
  exact ExtTreeMap.size_erase_le

theorem size_filter_modify_of_find (here : t[k]? = some v) (p : α → β → Bool) (f : β → β) :
    ((t.modify k f).filter p).size + (if p k v then 1 else 0) = (t.filter p).size + if p k (f v) then 1 else 0 := by
  have fresh : (t.erase k)[k]? = none := by rw [find_erase, if_pos rfl]
  have before : t = (t.erase k).insert k v := by
    refine ExtTreeMap.ext_getElem? fun a => ?_
    rw [find_insert, find_erase]
    split_ifs with same
    · rw [← same, here]
    · rfl
  have after : t.modify k f = (t.erase k).insert k (f v) := by
    refine ExtTreeMap.ext_getElem? fun a => ?_
    rw [find_modify, find_insert, find_erase]
    split_ifs with same
    · rw [← same, here]
      rfl
    · rfl
  have start := size_filter_insert (t.erase k) k v p fresh
  rw [← before] at start
  rw [after, size_filter_insert (t.erase k) k (f v) p fresh]
  omega

omit [LawfulEqCmp cmp] [DecidableEq α] in
theorem size_filter_add (p : α → β → Bool) :
    (t.filter p).size + (t.filter fun a v => !p a v).size = t.size := by
  rw [← ExtTreeMap.length_toList, ← ExtTreeMap.length_toList, ← ExtTreeMap.length_toList, ExtTreeMap.toList_filter,
    ExtTreeMap.toList_filter]
  exact (List.length_eq_length_filter_add fun entry : α × β => p entry.1 entry.2).symm

omit [DecidableEq α] in
theorem size_le_one (unique : ∀ a b, a ∈ t → b ∈ t → a = b) : t.size ≤ 1 := by
  rw [← ExtTreeMap.length_keys]
  have keys : ∀ a ∈ t.keys, ∀ b ∈ t.keys, a = b := by
    intro a first b second
    exact unique a b (ExtTreeMap.mem_keys.mp first) (ExtTreeMap.mem_keys.mp second)
  have distinct := t.nodup_keys
  match list : t.keys with
  | [] => simp
  | [a] => simp
  | a :: b :: rest =>
    rw [list] at keys distinct
    have same := keys a (by simp) b (by simp)
    simp [same] at distinct

omit [DecidableEq α] in
theorem forall_find {p : α → β → Prop} (all : ∀ entry ∈ t.toList, p entry.1 entry.2) (a : α) (v : β)
    (here : t[a]? = some v) : p a v := all (a, v) (ExtTreeMap.mem_toList_iff_getElem?_eq_some.mpr here)

omit [DecidableEq α] in
theorem size_le_of_sub {t t' : ExtTreeMap α β cmp} (sub : ∀ (a : α) v, t'[a]? = some v → t[a]? = some v) :
    t'.size ≤ t.size := by
  rw [← ExtTreeMap.length_keys, ← ExtTreeMap.length_keys]
  refine (t'.nodup_keys.subperm fun a inside => ?_).length_le
  obtain ⟨v, here⟩ := (mem_iff t' a).mp (ExtTreeMap.mem_keys.mp inside)
  exact ExtTreeMap.mem_keys.mpr ((mem_iff t a).mpr ⟨v, sub a v here⟩)

omit [LawfulEqCmp cmp] [DecidableEq α] in
theorem size_erase_of_find (here : t[k]? = some v) : (t.erase k).size + 1 = t.size := by
  have inside : t.contains k = true := by
    rw [ExtTreeMap.contains_eq_isSome_getElem?, here]
    rfl
  have positive : 0 < t.size := by
    rw [Nat.pos_iff_ne_zero]
    intro zero
    rw [← ExtTreeMap.eq_empty_iff_size_eq_zero] at zero
    simp [zero] at inside
  rw [ExtTreeMap.size_erase, inside, if_pos rfl]
  omega

omit [LawfulEqCmp cmp] [DecidableEq α] in
theorem size_insert_of_fresh (fresh : t[k]? = none) : (t.insert k v).size = t.size + 1 := by
  have absent : t.contains k = false := by
    rw [ExtTreeMap.contains_eq_isSome_getElem?, fresh]
    rfl
  rw [ExtTreeMap.size_insert, absent]
  rfl

omit [LawfulEqCmp cmp] [DecidableEq α] in
theorem nodup_toList : t.toList.Nodup := by
  refine t.distinct_keys_toList.imp fun apart same => apart ?_
  rw [same]
  exact Std.ReflCmp.compare_self

omit [DecidableEq α] in
theorem toList_erase_perm [DecidableEq α] (here : t[k]? = some v) : t.toList.Perm ((k, v) :: (t.erase k).toList) := by
  have gone (w : β) : (k, w) ∉ (t.erase k).toList := by
    rw [ExtTreeMap.mem_toList_iff_getElem?_eq_some, find_erase, if_pos rfl]
    exact nofun
  rw [List.perm_ext_iff_of_nodup (nodup_toList t) (List.nodup_cons.mpr ⟨gone v, nodup_toList _⟩)]
  rintro ⟨a, w⟩
  rw [List.mem_cons, ExtTreeMap.mem_toList_iff_getElem?_eq_some, ExtTreeMap.mem_toList_iff_getElem?_eq_some, find_erase]
  by_cases same : k = a
  · subst same
    rw [here, if_pos rfl]
    constructor
    · intro eq
      cases eq
      exact .inl rfl
    · rintro (eq | impossible)
      · cases eq
        rfl
      · cases impossible
  · rw [if_neg same]
    constructor
    · exact .inr
    · rintro (eq | kept)
      · cases eq
        exact absurd rfl same
      · exact kept

theorem erase_of_absent (absent : t[k]? = none) : t.erase k = t := by
  refine ExtTreeMap.ext_getElem? fun a => ?_
  rw [find_erase]
  split_ifs with same
  · rw [← same, absent]
  · rfl

theorem find_foldl_insert {γ : Type} (f : β → γ) {entries : List (α × β)} (once : (entries.map (·.1)).Nodup)
    (m : ExtTreeMap α γ cmp) (a : α) : (entries.foldl (fun m e => m.insert e.1 (f e.2)) m)[a]? =
      match entries.find? fun e => e.1 = a with
      | some e => some (f e.2)
      | none => m[a]? := by
  induction entries generalizing m with
  | nil => rfl
  | cons e rest ih =>
    obtain ⟨fresh, others⟩ := List.nodup_cons.mp once
    rw [List.foldl_cons, ih others, List.find?_cons]
    by_cases here : e.1 = a
    · have absent : rest.find? (fun e => e.1 = a) = none := by
        rw [List.find?_eq_none]
        intro e' member same
        rw [decide_eq_true_eq] at same
        exact fresh (List.mem_map.mpr ⟨e', member, same.trans here.symm⟩)
      rw [absent, find_insert, if_pos here]
      simp [here]
    · rw [find_insert, if_neg here]
      simp [here]

theorem foldl_insert_toList {γ : Type} (f : β → γ) :
    t.toList.foldl (fun m e => m.insert e.1 (f e.2)) (∅ : ExtTreeMap α γ cmp) = t.map fun _ v => f v := by
  have once : (t.toList.map (·.1)).Nodup := by
    rw [ExtTreeMap.map_fst_toList_eq_keys]
    exact t.nodup_keys
  refine ExtTreeMap.ext_getElem? fun a => ?_
  rw [find_foldl_insert f once, ExtTreeMap.getElem?_map]
  cases found : t.toList.find? fun e => e.1 = a with
  | some e =>
    obtain ⟨a', v⟩ := e
    have same : a' = a := by simpa using List.find?_some found
    subst same
    have here := ExtTreeMap.mem_toList_iff_getElem?_eq_some.mp (List.mem_of_find?_eq_some found)
    rw [here]
    rfl
  | none =>
    have absent : t[a]? = none := by
      cases here : t[a]? with
      | none => rfl
      | some v =>
        have member := ExtTreeMap.mem_toList_iff_getElem?_eq_some.mpr here
        have other := List.find?_eq_none.mp found _ member
        simp at other
    rw [absent]
    simp

end TreeMap
