import Bitty.Term.Buffer.Relocate
import Bitty.Ui.Selection

/-! How long a persistent selection keeps the text of its lift. -/

namespace Bitty.Ui

open Bitty.Term

namespace PersistentSelection

variable {width height : Nat} {p : PersistentSelection} {s t : State width height} {bp : BufferPos} {lineId : Option Nat}

/-- The line of an endpoint stands where it was, when the endpoint names one. -/
structure Anchored (s : State width height) (bp : BufferPos) (lineId : Option Nat) : Prop where
  inside : bp.bufferRow < s.scrollbackLen + height
  line : ∀ id, lineId = some id → ∃ line, s.scrollbackLine bp.bufferRow = some line ∧ line.id = id

theorem checkEndpoint_iff : checkEndpoint s bp lineId = true ↔ Anchored s bp lineId := by
  unfold checkEndpoint
  by_cases inside : bp.bufferRow < s.scrollbackLen + height
  · rw [if_neg (by omega)]
    cases lineId with
    | none => exact ⟨fun _ => ⟨inside, nofun⟩, fun _ => rfl⟩
    | some id =>
      dsimp only
      by_cases old : bp.bufferRow < s.scrollbackLen
      · rw [if_neg (by omega)]
        cases here : s.scrollbackLine bp.bufferRow with
        | none =>
          refine ⟨nofun, fun anchored => ?_⟩
          obtain ⟨line, found, -⟩ := anchored.line id rfl
          rw [here] at found
          cases found
        | some line =>
          constructor
          · intro same
            refine ⟨inside, fun other named => ⟨line, here, ?_⟩⟩
            obtain rfl := Option.some.inj named
            exact of_decide_eq_true same
          · intro anchored
            obtain ⟨found, there, same⟩ := anchored.line id rfl
            obtain rfl := Option.some.inj (here.symm.trans there)
            exact decide_eq_true same
      · rw [if_pos (by omega)]
        refine ⟨nofun, fun anchored => ?_⟩
        obtain ⟨line, found, -⟩ := anchored.line id rfl
        exact absurd (List.getElem?_eq_some_iff.mp found).1 old
  · rw [if_pos (by omega)]
    exact ⟨nofun, fun anchored => absurd anchored.inside inside⟩

theorem isValid_iff : p.isValid s = true ↔ Anchored s p.anchor p.anchorLineId ∧ Anchored s p.focus p.focusLineId := by
  rw [isValid, Bool.and_eq_true, checkEndpoint_iff, checkEndpoint_iff]

theorem resolve_of_anchored (anchored : Anchored s bp lineId) : resolve s bp lineId = some bp := by
  cases lineId with
  | none => rfl
  | some id =>
    obtain ⟨line, found, same⟩ := anchored.line id rfl
    have search : s.scrollback.lines.findIdx? (·.id = id) = some bp.bufferRow := by
      refine List.findIdx?_eq_some_iff_getElem.mpr ?_
      obtain ⟨bound, here⟩ := List.getElem?_eq_some_iff.mp found
      refine ⟨bound, by simpa [here] using same, fun j earlier => ?_⟩
      have below := Scrollback.id_lt_of_lt (List.getElem?_eq_getElem (by omega)) found earlier
      simp only [decide_eq_true_eq]
      omega
    rw [resolve, found]
    dsimp only
    rw [if_neg (not_not.mpr same), if_pos search]

theorem orderedBufferEndpoints_of_valid (valid : p.isValid s = true) :
    p.orderedBufferEndpoints s = some (if before p.anchor p.focus then (p.anchor, p.focus) else (p.focus, p.anchor)) := by
  obtain ⟨anchor, focus⟩ := isValid_iff.mp valid
  rw [orderedBufferEndpoints, if_pos valid, resolve_of_anchored anchor, resolve_of_anchored focus]
  rfl

theorem text_of_invalid (invalid : p.isValid s = false) : p.text s = none := by
  have none : p.orderedBufferEndpoints s = none := by simp [orderedBufferEndpoints, invalid]
  unfold text blockText
  rw [none]
  split <;> rfl

theorem joinRows_congr {start stop : Nat} {text : Nat → List Cell → Text}
    (same : ∀ i, start ≤ i → i ≤ stop → s.bufferRow i = t.bufferRow i) :
    joinRows s start stop text = joinRows t start stop text := by
  refine List.flatMap_congr fun i member => ?_
  have range := List.mem_range'_1.mp member
  rw [same i range.1 (by omega)]

theorem text_congr (validS : p.isValid s = true) (validT : p.isValid t = true)
    (same : ∀ i, p.Selects i → s.bufferRow i = t.bufferRow i) : p.text s = p.text t := by
  have rows (first last : BufferPos)
      (ends : (if before p.anchor p.focus then (p.anchor, p.focus) else (p.focus, p.anchor)) = (first, last)) :
      ∀ i, first.bufferRow ≤ i → i ≤ last.bufferRow → s.bufferRow i = t.bufferRow i := by
    intro i above below
    refine same i ?_
    unfold Selects
    split at ends
    next =>
      obtain ⟨rfl, rfl⟩ := Prod.mk.inj ends
      omega
    next =>
      obtain ⟨rfl, rfl⟩ := Prod.mk.inj ends
      omega
  unfold text blockText
  rw [orderedBufferEndpoints_of_valid validS, orderedBufferEndpoints_of_valid validT]
  generalize ends : (if before p.anchor p.focus then (p.anchor, p.focus) else (p.focus, p.anchor)) = pair
  obtain ⟨first, last⟩ := pair
  have agree := rows first last ends
  split
  next => exact congrArg some (joinRows_congr agree)
  next => exact congrArg some (joinRows_congr agree)

theorem anchored_lineIdAt {row : Nat} (inside : row < s.scrollbackLen + height) (col : Nat) :
    Anchored s ⟨row, col⟩ (lineIdAt s row) := by
  refine ⟨inside, fun id named => ?_⟩
  unfold lineIdAt at named
  split at named
  next =>
    obtain ⟨line, here, same⟩ := Option.map_eq_some_iff.mp named
    exact ⟨line, here, same⟩
  next => cases named

theorem Lifted.valid (lifted : Lifted s p) : p.isValid s = true := by
  refine isValid_iff.mpr ?_
  cases lifted with
  | grid sel anchor focus => exact ⟨⟨Nat.add_lt_add_left anchor _, nofun⟩, ⟨Nat.add_lt_add_left focus _, nofun⟩⟩
  | view sel view fits anchor focus =>
    have inside {row : Nat} (shown : row < view.rows) : viewStart view s + row < s.scrollbackLen + height := by
      unfold viewStart
      omega
    exact ⟨anchored_lineIdAt (inside anchor) _, anchored_lineIdAt (inside focus) _⟩

def after (s : State width height) (acts : List (Action width height)) : State width height := acts.foldl State.perform s

def located (s : State width height) : List (Action width height) → Nat → Option Nat
  | [], i => some i
  | act :: rest, i => (s.relocate act i).bind (located (s.perform act) rest)

def Unwritten (p : PersistentSelection) (s : State width height) (acts : List (Action width height)) : Prop :=
  ∀ done act rest, acts = done ++ act :: rest → ∀ i j, p.Selects i → located s done i = some j →
    ¬(after s done).Rewrites act j

def Takes (p : PersistentSelection) (s : State width height) (act : Action width height) : Prop :=
  p.anchorLineId ≠ none ∧ s.relocate act p.anchor.bufferRow ≠ some p.anchor.bufferRow ∨
    p.focusLineId ≠ none ∧ s.relocate act p.focus.bufferRow ≠ some p.focus.bufferRow

/-- Every action leaves the selected rows at their indices, until one takes the line of an endpoint away. -/
def Undisturbed (p : PersistentSelection) : State width height → List (Action width height) → Prop
  | _, [] => True
  | s, act :: rest =>
    Takes p s act ∨ (∀ i, p.Selects i → s.relocate act i = some i) ∧ Undisturbed p (s.perform act) rest

structure Truthful (p : PersistentSelection) (s : State width height) (done : List (Action width height)) : Prop where
  text : p.isValid (after s done) = true → p.text (after s done) = p.text s
  lost : (∃ i, p.Selects i ∧ located s done i = none) → p.isValid (after s done) = false ∧ p.text (after s done) = none

structure Intact (p : PersistentSelection) (s : State width height) (done : List (Action width height)) : Prop where
  valid : p.isValid (after s done) = true
  located : ∀ i, p.Selects i → located s done i = some i
  rows : ∀ i, p.Selects i → s.bufferRow i = (after s done).bufferRow i

def Lost (p : PersistentSelection) (t : State width height) : Prop :=
  (∃ id, p.anchorLineId = some id ∧ t.scrollback.Gone p.anchor.bufferRow id) ∨
    ∃ id, p.focusLineId = some id ∧ t.scrollback.Gone p.focus.bufferRow id

theorem gone_perform {i id : Nat} (gone : s.scrollback.Gone i id) (act : Action width height) :
    (s.perform act).scrollback.Gone i id := by
  rw [State.scrollback_perform]
  split
  next => exact Scrollback.gone_clear gone.1
  next => exact gone.pushAll _

theorem Lost.after (lost : Lost p s) (acts : List (Action width height)) : Lost p (after s acts) := by
  induction acts generalizing s with
  | nil => exact lost
  | cons act rest ih =>
    refine ih ?_
    rcases lost with ⟨id, named, gone⟩ | ⟨id, named, gone⟩
    · exact .inl ⟨id, named, gone_perform gone act⟩
    · exact .inr ⟨id, named, gone_perform gone act⟩

theorem not_anchored_of_gone {id : Nat} (named : lineId = some id) (gone : s.scrollback.Gone bp.bufferRow id) :
    ¬Anchored s bp lineId := by
  intro anchored
  obtain ⟨line, here, same⟩ := anchored.line id named
  have later := gone.2 line here
  omega

theorem Lost.invalid (lost : Lost p s) : p.isValid s = false := by
  refine Bool.eq_false_iff.mpr fun valid => ?_
  obtain ⟨anchor, focus⟩ := isValid_iff.mp valid
  rcases lost with ⟨id, named, gone⟩ | ⟨id, named, gone⟩
  · exact not_anchored_of_gone named gone anchor
  · exact not_anchored_of_gone named gone focus

theorem Anchored.gone {act : Action width height} {id : Nat} (anchored : Anchored s bp lineId) (named : lineId = some id)
    (moves : s.relocate act bp.bufferRow ≠ some bp.bufferRow) : (s.perform act).scrollback.Gone bp.bufferRow id := by
  obtain ⟨line, here, rfl⟩ := anchored.line id named
  have old : bp.bufferRow < s.scrollbackLen := (List.getElem?_eq_some_iff.mp here).1
  rw [State.scrollback_perform]
  rw [State.relocate, if_pos old, State.relocateHistory] at moves
  by_cases clears : act.clears = true
  · rw [if_pos clears]
    exact Scrollback.gone_clear (s.scrollback.fresh line (List.mem_of_getElem? here))
  · rw [if_neg clears] at moves ⊢
    refine Scrollback.gone_of_pushAll here _ ?_
    rw [State.length_pushed]
    by_contra room
    exact moves (State.evict_eq_self.mpr (Nat.not_lt.mp room))

theorem bufferRow_ne_none {i : Nat} : s.bufferRow i ≠ none ↔ i < s.scrollbackLen + height := by
  by_cases old : i < s.scrollbackLen
  · have inRows : i < s.scrollback.rows.length := by
      rw [Scrollback.length_rows]
      exact old
    rw [State.bufferRow_history old, List.getElem?_eq_getElem inRows]
    exact ⟨fun _ => Nat.lt_add_right _ old, fun _ => Option.some_ne_none _⟩
  · rw [State.bufferRow, if_neg old]
    split
    next inside => exact ⟨fun _ => by omega, fun _ => Option.some_ne_none _⟩
    next outside => exact ⟨fun absurd => (absurd rfl).elim, fun inside => by omega⟩

theorem Anchored.step {act : Action width height} (anchored : Anchored s bp lineId)
    (stays : s.relocate act bp.bufferRow = some bp.bufferRow)
    (same : (s.perform act).bufferRow bp.bufferRow = s.bufferRow bp.bufferRow) : Anchored (s.perform act) bp lineId := by
  refine ⟨?_, fun id named => ?_⟩
  · rw [← bufferRow_ne_none, same, bufferRow_ne_none]
    exact anchored.inside
  · obtain ⟨line, here, rfl⟩ := anchored.line id named
    have old : bp.bufferRow < s.scrollbackLen := (List.getElem?_eq_some_iff.mp here).1
    refine ⟨line, ?_, rfl⟩
    rw [State.scrollbackLine, State.scrollback_perform]
    rw [State.relocate, if_pos old, State.relocateHistory] at stays
    by_cases clears : act.clears = true
    · rw [if_pos clears] at stays
      cases stays
    · rw [if_neg clears] at stays ⊢
      refine Scrollback.line_pushAll_of_room here _ ?_
      rw [State.length_pushed]
      exact State.evict_eq_self.mp stays

theorem selects_anchor : p.Selects p.anchor.bufferRow := ⟨min_le_left _ _, le_max_left _ _⟩

theorem selects_focus : p.Selects p.focus.bufferRow := ⟨min_le_right _ _, le_max_right _ _⟩

theorem lt_of_selects (valid : p.isValid s = true) {i : Nat} (selected : p.Selects i) : i < s.scrollbackLen + height := by
  obtain ⟨anchor, focus⟩ := isValid_iff.mp valid
  exact lt_of_le_of_lt selected.2 (max_lt anchor.inside focus.inside)

theorem intact_or_lost {acts : List (Action width height)} (valid : p.isValid s = true) (unwritten : Unwritten p s acts)
    (undisturbed : Undisturbed p s acts) {done rest : List (Action width height)} (split : acts = done ++ rest) :
    Intact p s done ∨ Lost p (after s done) := by
  induction done generalizing s acts with
  | nil => exact .inl ⟨valid, fun i _ => rfl, fun i _ => rfl⟩
  | cons act done ih =>
    subst split
    obtain ⟨anchor, focus⟩ := isValid_iff.mp valid
    rcases undisturbed with takes | ⟨stays, later⟩
    · refine .inr (Lost.after ?_ done)
      rcases takes with ⟨named, moves⟩ | ⟨named, moves⟩
      · obtain ⟨id, here⟩ := Option.ne_none_iff_exists'.mp named
        exact .inl ⟨id, here, anchor.gone here moves⟩
      · obtain ⟨id, here⟩ := Option.ne_none_iff_exists'.mp named
        exact .inr ⟨id, here, focus.gone here moves⟩
    · have same {i : Nat} (selected : p.Selects i) : (s.perform act).bufferRow i = s.bufferRow i :=
        State.relocate_spec (lt_of_selects valid selected)
          (unwritten [] act (done ++ rest) rfl i i selected rfl) (stays i selected)
      have next : p.isValid (s.perform act) = true := isValid_iff.mpr
        ⟨anchor.step (stays _ selects_anchor) (same selects_anchor), focus.step (stays _ selects_focus) (same selects_focus)⟩
      have still : Unwritten p (s.perform act) (done ++ rest) := by
        intro before written others cut i j selected goes
        refine unwritten (act :: before) written others ?_ i j selected ?_
        · rw [List.cons_append, cut, List.cons_append]
        · rw [located, stays i selected]
          exact goes
      rcases ih next still later rfl with intact | lost
      · refine .inl ⟨intact.valid, fun i selected => ?_, fun i selected => ?_⟩
        · rw [located, stays i selected]
          exact intact.located i selected
        · rw [← same selected]
          exact intact.rows i selected
      · exact .inr lost

/-- In every run whose actions leave the selected rows at their indices until an endpoint is lost, a valid selection has
the text of its lift. -/
theorem Lifted.truthful {acts done rest : List (Action width height)} (lifted : Lifted s p) (unwritten : Unwritten p s acts)
    (undisturbed : Undisturbed p s acts) (split : acts = done ++ rest) : Truthful p s done := by
  rcases intact_or_lost lifted.valid unwritten undisturbed split with intact | lost
  · refine ⟨fun valid => (text_congr lifted.valid valid intact.rows).symm, ?_⟩
    rintro ⟨i, selected, nowhere⟩
    rw [intact.located i selected] at nowhere
    cases nowhere
  · have invalid := lost.invalid
    refine ⟨fun valid => ?_, fun _ => ⟨invalid, text_of_invalid invalid⟩⟩
    rw [invalid] at valid
    cases valid

def letterRow (c : Char) : Row 1 := ⟨⟨#[⟨c, 1, false, []⟩], rfl⟩, false⟩

def twoRows (maxLines : Nat) : State 1 2 where
  main := fun r => if r = 0 then letterRow 'a' else letterRow 'b'
  alt := fun _ => Row.blank 1
  altScreen := false
  scrollback := Scrollback.withMaxLines maxLines
  scrollRegionTop := 0
  scrollRegionBottom := 1

def firstRow : Selection := ⟨⟨0, 0⟩, ⟨0, 0⟩, .simple, false⟩

theorem lifted_firstRow (maxLines : Nat) : Lifted (twoRows maxLines) (fromGridSelection firstRow (twoRows maxLines)) :=
  .grid firstRow (by decide) (by decide)

theorem unwritten_scrollUps (p : PersistentSelection) (s : State width height) (n k : Nat) :
    Unwritten p s (List.replicate k (.scrollUpRegion n)) := by
  intro done act rest split i j _ _
  have member : act ∈ List.replicate k (.scrollUpRegion n) := by
    rw [split]
    simp
  rw [List.eq_of_mem_replicate member]
  exact id

/-- The row of the selection enters the scrollback, which has room for it. -/
theorem Lifted.truthful_firstRow :
    Truthful (fromGridSelection firstRow (twoRows 1)) (twoRows 1) (List.replicate 1 (.scrollUpRegion 1)) := by
  have stays : Undisturbed (fromGridSelection firstRow (twoRows 1)) (twoRows 1) (List.replicate 1 (.scrollUpRegion 1)) := by
    refine .inr ⟨fun i selected => ?_, trivial⟩
    obtain rfl : i = 0 := Nat.le_zero.mp selected.2
    decide
  exact (lifted_firstRow 1).truthful (unwritten_scrollUps _ _ 1 1) stays (List.append_nil _).symm

/-- The row of the selection is evicted by a second line feed, and the selection names the next row. -/
theorem Lifted.untruthful : ¬∀ (width height : Nat) (s : State width height) (p : PersistentSelection)
    (acts done rest : List (Action width height)), Lifted s p → Unwritten p s acts → acts = done ++ rest →
      Truthful p s done := by
  intro claimed
  have truthful := claimed 1 2 (twoRows 1) _ _ _ [] (lifted_firstRow 1) (unwritten_scrollUps _ _ 1 2)
    (List.append_nil _).symm
  have same := truthful.text (by decide)
  revert same
  decide

end PersistentSelection

end Bitty.Ui
