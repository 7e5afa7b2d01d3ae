import Bitty.Term.Buffer.State

/-! Where an action takes the row at an index of the scrollback followed by the screen. -/

namespace Bitty.Term

variable {width height : Nat}

def Action.clears : Action width height → Bool
  | .eraseScrollback | .fullReset => true
  | _ => false

namespace State

variable (s : State width height)

def evict (pushed j : Nat) : Option Nat :=
  let evicted := s.scrollbackLen + pushed - s.scrollback.maxLines
  if j < evicted then none else some (j - evicted)

/-- Where a row of the screen goes when the rows of a region move up and those that leave are pushed or discarded. -/
def relocateUp (top bottom : Fin height) (n : Nat) (captures : Prop) [Decidable captures] (r : Nat) : Option Nat :=
  let count := min n (bottom + 1 - top)
  let pushed := if captures then count else 0
  if top ≤ r ∧ r ≤ bottom then
    if r < top + count then if captures then s.evict pushed (s.scrollbackLen + (r - top)) else none
    else s.evict pushed (s.scrollbackLen + pushed + (r - count))
  else s.evict pushed (s.scrollbackLen + pushed + r)

/-- Where a row of the screen goes when the rows of a region move down. -/
def relocateDown (top bottom : Fin height) (n r : Nat) : Option Nat :=
  let count := min n (bottom + 1 - top)
  if top ≤ r ∧ r ≤ bottom then if r + count ≤ bottom then some (s.scrollbackLen + (r + count)) else none
  else some (s.scrollbackLen + r)

def pushes : Action width height → Nat
  | .scrollUpRegion n => if s.captures then min n (s.scrollRegionBottom + 1 - s.scrollRegionTop) else 0
  | .scrollAndClear => if s.altScreen then 0 else height
  | .restoreScrollback lines => lines.length
  | _ => 0

def relocateHistory (act : Action width height) (i : Nat) : Option Nat :=
  if act.clears then none else s.evict (s.pushes act) i

def relocateScreen (act : Action width height) (r : Nat) : Option Nat :=
  match act with
  | .scrollUpRegion n => s.relocateUp s.scrollRegionTop s.scrollRegionBottom n s.captures r
  | .scrollDownRegion n => s.relocateDown s.scrollRegionTop s.scrollRegionBottom n r
  | .insertLines row n =>
    if s.inRegion row then s.relocateDown row s.scrollRegionBottom n r else some (s.scrollbackLen + r)
  | .deleteLines row n =>
    if s.inRegion row then s.relocateUp row s.scrollRegionBottom n False r else some (s.scrollbackLen + r)
  | .eraseScrollback => some r
  | .scrollAndClear => if s.altScreen then none else s.evict height (s.scrollbackLen + r)
  | .enterAltScreen _ => if s.altScreen then some (s.scrollbackLen + r) else none
  | .leaveAltScreen => if s.altScreen then none else some (s.scrollbackLen + r)
  | .fullReset => none
  | .restoreScrollback lines => s.evict lines.length (s.scrollbackLen + lines.length + r)
  | _ => some (s.scrollbackLen + r)

/-- Where an action takes the row at an index; nowhere when the row is evicted, discarded or hidden. -/
def relocate (act : Action width height) (i : Nat) : Option Nat :=
  if i < s.scrollbackLen then s.relocateHistory act i else s.relocateScreen act (i - s.scrollbackLen)

def Rewrites (act : Action width height) (i : Nat) : Prop :=
  match act with
  | .write row _ => i = s.scrollbackLen + row
  | _ => False

variable {s} {t : State width height} {i j : Nat} {more : List (List Cell × Bool)}

theorem bufferRow_history (old : i < s.scrollbackLen) : s.bufferRow i = s.scrollback.rows[i]? := by
  rw [bufferRow, if_pos old, Scrollback.rows, List.getElem?_map]
  rfl

theorem bufferRow_screen (r : Fin height) : s.bufferRow (s.scrollbackLen + r) = some (s.screensActive r).cells.toList := by
  have inside : s.scrollbackLen + r - s.scrollbackLen < height := by omega
  have same : (⟨s.scrollbackLen + r - s.scrollbackLen, inside⟩ : Fin height) = r := Fin.ext (Nat.add_sub_cancel_left _ _)
  rw [bufferRow, if_neg (by omega), dif_pos inside, same]

theorem scrollbackLen_pushed (pushed : t.scrollback = s.scrollback.pushAll more) :
    t.scrollbackLen = min (s.scrollbackLen + more.length) s.scrollback.maxLines := by
  rw [scrollbackLen, pushed, Scrollback.length_pushAll]
  rfl

theorem bufferRow_pushed_history (pushed : t.scrollback = s.scrollback.pushAll more) (old : i < s.scrollbackLen + more.length)
    (goes : s.evict more.length i = some j) : t.bufferRow j = (s.scrollback.rows ++ more.map (·.1))[i]? := by
  simp only [evict, Option.ite_none_left_eq_some, Option.some.injEq] at goes
  have bounded := s.scrollback.bounded
  have length := scrollbackLen_pushed pushed
  have here : j < t.scrollbackLen := by
    unfold scrollbackLen at goes old length ⊢
    omega
  have index : s.scrollback.lines.length + more.length - s.scrollback.maxLines + j = i := by
    unfold scrollbackLen at goes
    omega
  rw [bufferRow_history here, pushed, Scrollback.rows_pushAll, List.getElem?_drop, index]

theorem bufferRow_pushed_screen (pushed : t.scrollback = s.scrollback.pushAll more) (r : Fin height)
    (goes : s.evict more.length (s.scrollbackLen + more.length + r) = some j) :
    t.bufferRow j = some (t.screensActive r).cells.toList := by
  simp only [evict, Option.ite_none_left_eq_some, Option.some.injEq] at goes
  have bounded := s.scrollback.bounded
  have length := scrollbackLen_pushed pushed
  have index : j = t.scrollbackLen + r := by
    unfold scrollbackLen at goes length ⊢
    omega
  rw [index, bufferRow_screen]

variable {n : Nat}

theorem evict_eq_self : s.evict n i = some i ↔ s.scrollbackLen + n ≤ s.scrollback.maxLines := by
  have unfolded : s.evict n i = if i < s.scrollbackLen + n - s.scrollback.maxLines then none
      else some (i - (s.scrollbackLen + n - s.scrollback.maxLines)) := rfl
  rw [unfolded]
  constructor
  · intro same
    split at same
    next => cases same
    next high =>
      have index := Option.some.inj same
      omega
  · intro room
    have none : s.scrollbackLen + n - s.scrollback.maxLines = 0 := by omega
    rw [none, if_neg (Nat.not_lt_zero i), Nat.sub_zero]

theorem evict_zero : s.evict 0 i = some i := evict_eq_self.mpr s.scrollback.bounded

@[simp] theorem screensActive_setActive (g : Grid width height) : (s.setActive g).screensActive = g := by
  unfold setActive screensActive
  cases s.altScreen <;> rfl

@[simp] theorem scrollback_setActive (g : Grid width height) : (s.setActive g).scrollback = s.scrollback := by
  unfold setActive
  cases s.altScreen <;> rfl

theorem length_removed (g : Grid width height) (top bottom : Fin height) (n : Nat) :
    (g.removed top bottom n).length = min n (bottom + 1 - top) := by
  simp only [Grid.removed, List.length_map, List.length_take, List.length_drop, List.length_finRange]
  omega

variable {top bottom : Fin height}

theorem removed_getElem? (g : Grid width height) {k : Nat}
    (few : k < min n (bottom + 1 - top)) : (g.removed top bottom n)[k]? = some (g ⟨top + k, by omega⟩) := by
  have inside : top + k < (List.finRange height).length := by
    rw [List.length_finRange]
    omega
  rw [Grid.removed, List.getElem?_map, List.getElem?_take_of_lt few, List.getElem?_drop,
    List.getElem?_eq_getElem inside, Option.map_some, List.getElem_finRange]
  rfl

variable {r : Fin height}

theorem removeLinesUp_apply (g : Grid width height)
    (inside : top.val ≤ r ∧ r.val ≤ bottom) (stays : top + min n (bottom + 1 - top) ≤ r) :
    g.removeLinesUp top bottom n ⟨r - min n (bottom + 1 - top), by omega⟩ = g r := by
  have target : top ≤ (⟨r - min n (bottom + 1 - top), by omega⟩ : Fin height) ∧
      (⟨r - min n (bottom + 1 - top), by omega⟩ : Fin height) ≤ bottom :=
    ⟨Fin.mk_le_mk.mpr (by omega), Fin.mk_le_mk.mpr (by omega)⟩
  have back : r - min n (bottom + 1 - top) + min n (bottom + 1 - top) = r.val := by omega
  rw [Grid.removeLinesUp, if_pos target]
  simp only [back]
  rw [dif_pos inside.2]

theorem removeLinesUp_outside (g : Grid width height)
    (outside : ¬(top.val ≤ r ∧ r.val ≤ bottom)) : g.removeLinesUp top bottom n r = g r := if_neg outside

theorem relocateUp_pushed
    (pushed : t.scrollback = s.scrollback.pushAll (captured (s.screensActive.removed top bottom n)))
    (scrolled : t.screensActive = s.screensActive.removeLinesUp top bottom n)
    (goes : s.relocateUp top bottom n True r = some j) : t.bufferRow j = some (s.screensActive r).cells.toList := by
  have count : (captured (s.screensActive.removed top bottom n)).length = min n (bottom + 1 - top) := by
    rw [captured, List.length_map, length_removed]
  simp only [relocateUp, if_true] at goes
  rw [← count] at goes
  by_cases inside : top.val ≤ r ∧ r.val ≤ bottom
  · rw [if_pos inside] at goes
    by_cases leaves : r.val < top + min n (bottom + 1 - top)
    · rw [if_pos (count ▸ leaves)] at goes
      have few : r.val - top < min n (bottom + 1 - top) := by omega
      have origin : (⟨top + (r - top), by omega⟩ : Fin height) = r :=
        Fin.ext (Nat.add_sub_of_le inside.1)
      have old : s.scrollback.rows.length = s.scrollbackLen := s.scrollback.length_rows
      rw [bufferRow_pushed_history pushed (by omega) goes, List.getElem?_append_right (by omega), old,
        Nat.add_sub_cancel_left, captured, List.map_map, List.getElem?_map, removed_getElem? _ few, origin]
      rfl
    · rw [if_neg (count ▸ leaves)] at goes
      have target : s.evict (captured (s.screensActive.removed top bottom n)).length (s.scrollbackLen +
          (captured (s.screensActive.removed top bottom n)).length +
            (⟨r - min n (bottom + 1 - top), by omega⟩ : Fin height)) = some j := by simpa only [count] using goes
      rw [bufferRow_pushed_screen pushed _ target, scrolled, removeLinesUp_apply _ inside (by omega)]
  · rw [if_neg inside] at goes
    rw [bufferRow_pushed_screen pushed r goes, scrolled, removeLinesUp_outside _ inside]

theorem relocateUp_discarded (kept : t.scrollback = s.scrollback)
    (scrolled : t.screensActive = s.screensActive.removeLinesUp top bottom n)
    (goes : s.relocateUp top bottom n False r = some j) : t.bufferRow j = some (s.screensActive r).cells.toList := by
  have same : t.scrollbackLen = s.scrollbackLen := congrArg (fun sb : Scrollback => sb.lines.length) kept
  simp only [relocateUp, if_false, Nat.add_zero, evict_zero] at goes
  by_cases inside : top.val ≤ r ∧ r.val ≤ bottom
  · rw [if_pos inside] at goes
    by_cases leaves : r.val < top + min n (bottom + 1 - top)
    · rw [if_pos leaves] at goes
      cases goes
    · rw [if_neg leaves] at goes
      obtain rfl := Option.some.inj goes
      have found := bufferRow_screen (s := t) ⟨r - min n (bottom + 1 - top), by omega⟩
      rw [← same, found, scrolled, removeLinesUp_apply _ inside (by omega)]
  · rw [if_neg inside] at goes
    obtain rfl := Option.some.inj goes
    rw [← same, bufferRow_screen, scrolled, removeLinesUp_outside _ inside]

theorem relocateDown_spec (kept : t.scrollback = s.scrollback)
    (scrolled : t.screensActive = s.screensActive.insertBlankLinesDown top bottom n)
    (goes : s.relocateDown top bottom n r = some j) : t.bufferRow j = some (s.screensActive r).cells.toList := by
  have same : t.scrollbackLen = s.scrollbackLen := congrArg (fun sb : Scrollback => sb.lines.length) kept
  simp only [relocateDown] at goes
  by_cases inside : top.val ≤ r ∧ r.val ≤ bottom
  · rw [if_pos inside] at goes
    by_cases leaves : r.val + min n (bottom + 1 - top) ≤ bottom
    · rw [if_pos leaves] at goes
      obtain rfl := Option.some.inj goes
      have found := bufferRow_screen (s := t) ⟨r + min n (bottom + 1 - top), by omega⟩
      rw [← same, found, scrolled, Grid.insertBlankLinesDown, if_neg (by simp only; omega),
        if_pos ⟨Fin.mk_le_mk.mpr (by omega), Fin.mk_le_mk.mpr (by omega)⟩, if_neg (by simp only; omega)]
      simp only [Nat.add_sub_cancel]
    · rw [if_neg leaves] at goes
      cases goes
  · rw [if_neg inside] at goes
    obtain rfl := Option.some.inj goes
    rw [← same, bufferRow_screen, scrolled, Grid.insertBlankLinesDown]
    split
    next => rfl
    next => exact congrArg (fun row : Row width => some row.cells.toList) (if_neg inside)

variable (s) in
def pushed (act : Action width height) : List (List Cell × Bool) :=
  match act with
  | .scrollUpRegion n =>
    if s.captures then captured (s.screensActive.removed s.scrollRegionTop s.scrollRegionBottom n) else []
  | .scrollAndClear => if s.altScreen then [] else captured ((List.finRange height).map s.screensActive)
  | .restoreScrollback lines => lines.map fun cells => (cells, false)
  | _ => []

theorem length_pushed (act : Action width height) : (s.pushed act).length = s.pushes act := by
  cases act with
  | scrollUpRegion n =>
    simp only [pushed, pushes]
    split
    next => rw [captured, List.length_map, length_removed]
    next => rfl
  | scrollAndClear =>
    simp only [pushed, pushes]
    split
    next => rfl
    next => simp [captured]
  | restoreScrollback lines => exact List.length_map _
  | _ => rfl

theorem scrollback_scrollUp (n : Nat) :
    (s.scrollUpRegion n).scrollback = s.scrollback.pushAll (s.pushed (.scrollUpRegion n)) := by
  unfold scrollUpRegion
  by_cases caught : s.captures
  · simp only [pushed, if_pos caught]
  · simp only [pushed, if_neg caught, scrollback_setActive]
    rfl

theorem scrollback_scrollAndClear :
    s.scrollAndClear.scrollback = s.scrollback.pushAll (s.pushed .scrollAndClear) := by
  unfold scrollAndClear
  by_cases alt : s.altScreen = true
  · simp only [pushed, if_pos alt, scrollback_setActive]
    rfl
  · simp only [pushed, if_neg alt]

theorem scrollback_perform (act : Action width height) : (s.perform act).scrollback =
    if act.clears then s.scrollback.clear else s.scrollback.pushAll (s.pushed act) := by
  cases act with
  | write row content => exact scrollback_setActive _
  | scrollUpRegion n => exact scrollback_scrollUp n
  | scrollDownRegion n => exact scrollback_setActive _
  | insertLines row n =>
    change (s.insertLines row n).scrollback = s.scrollback
    unfold insertLines
    split
    next => exact scrollback_setActive _
    next => rfl
  | deleteLines row n =>
    change (s.deleteLines row n).scrollback = s.scrollback
    unfold deleteLines
    split
    next => exact scrollback_setActive _
    next => rfl
  | setScrollRegion top bottom =>
    change (s.setScrollRegion top bottom).scrollback = s.scrollback
    unfold setScrollRegion
    split <;> rfl
  | eraseScrollback => rfl
  | scrollAndClear => exact scrollback_scrollAndClear
  | enterAltScreen clears =>
    change (s.switchAltScreen true clears).scrollback = s.scrollback
    unfold switchAltScreen
    split
    next => rfl
    next => rfl
  | leaveAltScreen =>
    change (s.switchAltScreen false false).scrollback = s.scrollback
    unfold switchAltScreen
    split
    next => rfl
    next => rfl
  | fullReset => rfl
  | restoreScrollback lines => rfl

theorem relocateHistory_spec {act : Action width height} (old : i < s.scrollbackLen)
    (goes : s.relocateHistory act i = some j) : (s.perform act).bufferRow j = s.bufferRow i := by
  unfold relocateHistory at goes
  by_cases clears : act.clears = true
  · simp [clears] at goes
  · have pushed := s.scrollback_perform act
    rw [if_neg clears] at goes pushed
    rw [← length_pushed] at goes
    have inRows : i < s.scrollback.rows.length := by
      rw [Scrollback.length_rows]
      exact old
    rw [bufferRow_pushed_history pushed (Nat.lt_add_right _ old) goes, List.getElem?_append_left inRows,
      bufferRow_history old]

theorem bufferRow_kept (length : t.scrollbackLen = s.scrollbackLen)
    (same : t.screensActive r = s.screensActive r) (goes : some (s.scrollbackLen + r) = some j) :
    t.bufferRow j = some (s.screensActive r).cells.toList := by
  obtain rfl := Option.some.inj goes
  rw [← length, bufferRow_screen, same]

theorem relocateScreen_scrollUp (goes : s.relocateScreen (.scrollUpRegion n) r = some j) :
    (s.scrollUpRegion n).bufferRow j = some (s.screensActive r).cells.toList := by
  have pushed := s.scrollback_scrollUp n
  have scrolled : (s.scrollUpRegion n).screensActive =
      s.screensActive.removeLinesUp s.scrollRegionTop s.scrollRegionBottom n := by
    unfold scrollUpRegion
    split
    next => exact screensActive_setActive _
    next => exact screensActive_setActive _
  by_cases caught : s.captures
  · simp only [State.pushed, if_pos caught] at pushed
    simp only [relocateScreen, caught] at goes
    exact relocateUp_pushed pushed scrolled goes
  · simp only [State.pushed, if_neg caught] at pushed
    simp only [relocateScreen, caught] at goes
    exact relocateUp_discarded pushed scrolled goes

theorem relocateScreen_scrollAndClear (goes : s.relocateScreen .scrollAndClear r = some j) :
    s.scrollAndClear.bufferRow j = some (s.screensActive r).cells.toList := by
  have pushed := s.scrollback_scrollAndClear
  by_cases alt : s.altScreen = true
  · simp [relocateScreen, alt] at goes
  · simp only [relocateScreen, if_neg alt] at goes
    simp only [State.pushed, if_neg alt] at pushed
    have count : (captured ((List.finRange height).map s.screensActive)).length = height := by simp [captured]
    have target : s.evict (captured ((List.finRange height).map s.screensActive)).length (s.scrollbackLen + r) = some j := by
      rwa [count]
    have old : s.scrollback.rows.length = s.scrollbackLen := s.scrollback.length_rows
    have row : r.val < (List.finRange height).length := by simp
    rw [bufferRow_pushed_history pushed (by omega) target, List.getElem?_append_right (by omega), old,
      Nat.add_sub_cancel_left, captured, List.map_map, List.map_map, List.getElem?_map, List.getElem?_eq_getElem row,
      List.getElem_finRange]
    rfl

theorem relocateScreen_spec {act : Action width height} (unwritten : ¬s.Rewrites act (s.scrollbackLen + r))
    (goes : s.relocateScreen act r = some j) : (s.perform act).bufferRow j = some (s.screensActive r).cells.toList := by
  cases act with
  | write row content =>
    have apart : r ≠ row := fun same => unwritten (same ▸ rfl)
    refine bufferRow_kept ?_ ?_ goes
    · exact congrArg (fun sb : Scrollback => sb.lines.length) (scrollback_setActive _)
    · change (s.setActive (s.screensActive.set row content)).screensActive r = _
      rw [screensActive_setActive]
      exact Function.update_of_ne apart _ _
  | scrollUpRegion n => exact relocateScreen_scrollUp goes
  | scrollDownRegion n => exact relocateDown_spec (scrollback_setActive _) (screensActive_setActive _) goes
  | insertLines row n =>
    change (s.insertLines row n).bufferRow j = _
    simp only [relocateScreen] at goes
    unfold insertLines
    by_cases inside : s.inRegion row
    · rw [if_pos inside] at goes ⊢
      exact relocateDown_spec (scrollback_setActive _) (screensActive_setActive _) goes
    · rw [if_neg inside] at goes ⊢
      exact bufferRow_kept rfl rfl goes
  | deleteLines row n =>
    change (s.deleteLines row n).bufferRow j = _
    simp only [relocateScreen] at goes
    unfold deleteLines
    by_cases inside : s.inRegion row
    · rw [if_pos inside] at goes ⊢
      exact relocateUp_discarded (scrollback_setActive _) (screensActive_setActive _) goes
    · rw [if_neg inside] at goes ⊢
      exact bufferRow_kept rfl rfl goes
  | setScrollRegion top bottom =>
    change (s.setScrollRegion top bottom).bufferRow j = _
    unfold setScrollRegion
    split
    next => exact bufferRow_kept rfl rfl goes
    next => exact bufferRow_kept rfl rfl goes
  | eraseScrollback =>
    obtain rfl := Option.some.inj goes
    have none : (s.perform .eraseScrollback).scrollbackLen = 0 := rfl
    have found := bufferRow_screen (s := s.perform .eraseScrollback) r
    rw [none, Nat.zero_add] at found
    exact found
  | scrollAndClear => exact relocateScreen_scrollAndClear goes
  | enterAltScreen clears =>
    change (s.switchAltScreen true clears).bufferRow j = _
    cases alt : s.altScreen with
    | true =>
      simp only [relocateScreen, alt, if_true] at goes
      rw [switchAltScreen, if_pos alt.symm]
      exact bufferRow_kept rfl rfl goes
    | false => simp [relocateScreen, alt] at goes
  | leaveAltScreen =>
    change (s.switchAltScreen false false).bufferRow j = _
    cases alt : s.altScreen with
    | true => simp [relocateScreen, alt] at goes
    | false =>
      simp only [relocateScreen, alt, Bool.false_eq_true, if_false] at goes
      rw [switchAltScreen, if_pos alt.symm]
      exact bufferRow_kept rfl rfl goes
  | fullReset => cases goes
  | restoreScrollback lines =>
    have count : (lines.map fun cells => (cells, false)).length = lines.length := List.length_map _
    simp only [relocateScreen] at goes
    rw [← count] at goes
    exact bufferRow_pushed_screen rfl r goes

theorem relocate_spec {act : Action width height} (inside : i < s.scrollbackLen + height) (unwritten : ¬s.Rewrites act i)
    (goes : s.relocate act i = some j) : (s.perform act).bufferRow j = s.bufferRow i := by
  unfold relocate at goes
  by_cases old : i < s.scrollbackLen
  · rw [if_pos old] at goes
    exact relocateHistory_spec old goes
  · rw [if_neg old] at goes
    have index : s.scrollbackLen + (i - s.scrollbackLen) = i := by omega
    have row := bufferRow_screen (s := s) ⟨i - s.scrollbackLen, by omega⟩
    simp only [index] at row
    rw [row]
    exact relocateScreen_spec (by simpa only [index] using unwritten) goes

end State

end Bitty.Term
