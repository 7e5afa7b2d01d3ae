import Mathlib

/-! Values that are put at places of a list, one after another. -/

namespace Placing

variable {α : Type}

def place (out : List α) (pairs : List (Nat × α)) : List α := pairs.foldl (fun out pair => out.set pair.1 pair.2) out

@[simp] theorem length_place (out : List α) (pairs : List (Nat × α)) : (place out pairs).length = out.length := by
  induction pairs generalizing out with
  | nil => rfl
  | cons pair rest ih => exact (ih _).trans List.length_set

theorem place_append (out : List α) (first second : List (Nat × α)) :
    place out (first ++ second) = place (place out first) second := List.foldl_append

variable {out : List α} {pairs : List (Nat × α)}

theorem getElem?_place_of_not_mem {i : Nat} (absent : i ∉ pairs.map Prod.fst) : (place out pairs)[i]? = out[i]? := by
  induction pairs generalizing out with
  | nil => rfl
  | cons pair rest ih =>
    rw [List.map_cons, List.mem_cons, not_or] at absent
    exact (ih absent.2).trans (List.getElem?_set_ne (Ne.symm absent.1))

theorem getElem?_place {i : Nat} {a : α} (once : (pairs.map Prod.fst).Nodup)
    (member : (i, a) ∈ pairs) (inside : i < out.length) : (place out pairs)[i]? = some a := by
  induction pairs generalizing out with
  | nil => cases member
  | cons pair rest ih =>
    rw [List.map_cons, List.nodup_cons] at once
    rcases List.mem_cons.mp member with rfl | later
    · exact (getElem?_place_of_not_mem once.1).trans (List.getElem?_set_self inside)
    · exact ih once.2 later (by rwa [List.length_set])

theorem place_perm (every : (pairs.map Prod.fst).Perm (List.range out.length)) :
    (place out pairs).Perm (pairs.map Prod.snd) := by
  have once : (pairs.map Prod.fst).Nodup := every.nodup_iff.mpr List.nodup_range
  have inside : ∀ pair ∈ pairs, pair.1 < out.length := fun pair member =>
    List.mem_range.mp (every.mem_iff.mp (List.mem_map_of_mem member))
  have read : (pairs.map Prod.fst).map (fun i => (place out pairs)[i]?) = pairs.map fun pair => some pair.2 := by
    rw [List.map_map]
    exact List.map_congr_left fun pair member => getElem?_place once member (inside pair member)
  have whole : (List.range out.length).map (fun i => (place out pairs)[i]?) = (place out pairs).map some := by
    refine List.ext_getElem (by simp) fun i left right => ?_
    rw [List.getElem_map, List.getElem_range, List.getElem_map, List.getElem?_eq_getElem]
  have somes : ((place out pairs).map some).Perm ((pairs.map Prod.snd).map some) := by
    rw [← whole, List.map_map]
    exact (every.symm.map _).trans (by rw [read]; rfl)
  exact (List.map_perm_map_iff (Option.some_injective α)).mp somes

end Placing
