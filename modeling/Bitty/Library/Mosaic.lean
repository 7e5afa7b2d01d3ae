import Mathlib

/-! Mosaics: boxes of whole cells that cover a box once, seen along a direction. Only the order of the cells along
and across it is used, so the four directions of a screen are four readings of one mosaic. -/

namespace Mosaic

/-- A box seen along a direction: entered at `enter` and left at `leave`, it lies from `near` to `far` across. -/
structure Facing where
  enter : Int
  leave : Int
  near : Int
  far : Int

namespace Facing

def Solid (b : Facing) : Prop := b.enter < b.leave ∧ b.near < b.far

def Holds (b : Facing) (along across : Int) : Prop :=
  b.enter ≤ along ∧ along < b.leave ∧ b.near ≤ across ∧ across < b.far

/-- `b` is entered where `a` is left, and a line along the direction goes through both. -/
structure Borders (a b : Facing) : Prop where
  meets : b.enter = a.leave
  near : a.near < b.far
  far : b.near < a.far

theorem Solid.first {b : Facing} (solid : b.Solid) : b.Holds b.enter b.near := ⟨le_rfl, solid.1, le_rfl, solid.2⟩

theorem Solid.last {b : Facing} (solid : b.Solid) : b.Holds (b.leave - 1) b.near := by
  obtain ⟨along, across⟩ := solid
  exact ⟨by omega, by omega, by omega, by omega⟩

theorem Holds.solid {b : Facing} {s t : Int} (holds : b.Holds s t) : b.Solid := by
  obtain ⟨enter, leave, near, far⟩ := holds
  exact ⟨by omega, by omega⟩

end Facing

variable {α : Type} {box : α → Facing} {items : List α} {whole : Facing} {a b : α}

/-- Each cell of the whole is in one of the boxes, no cell is in two, and none is outside. -/
structure Tiles (box : α → Facing) (items : List α) (whole : Facing) : Prop where
  inside : ∀ a ∈ items, ∀ s t, (box a).Holds s t → whole.Holds s t
  apart : items.Pairwise fun a b => ∀ s t, (box a).Holds s t → ¬ (box b).Holds s t
  cover : ∀ s t, whole.Holds s t → ∃ a ∈ items, (box a).Holds s t

namespace Tiles

theorem leave_le (tiles : Tiles box items whole) (member : a ∈ items) (solid : (box a).Solid) :
    (box a).leave ≤ whole.leave := by
  have last := tiles.inside a member _ _ solid.last
  have past := last.2.1
  omega

theorem none_beyond (tiles : Tiles box items whole) (ends : (box a).leave = whole.leave) (member : b ∈ items)
    (solid : (box b).Solid) : (box b).enter < (box a).leave := by
  have first := tiles.inside b member _ _ solid.first
  have before := first.2.1
  omega

theorem eq_of_holds (tiles : Tiles box items whole) {s t : Int} (inA : a ∈ items) (inB : b ∈ items)
    (holdsA : (box a).Holds s t) (holdsB : (box b).Holds s t) : a = b := by
  by_contra differ
  have symm : Std.Symm fun a b => ∀ s t, (box a).Holds s t → ¬ (box b).Holds s t :=
    ⟨fun _ _ apart s t holdsB holdsA => apart s t holdsA holdsB⟩
  exact tiles.apart.forall inA inB differ s t holdsA holdsB

theorem borders (tiles : Tiles box items whole) (member : a ∈ items) (solid : (box a).Solid)
    (short : (box a).leave < whole.leave) : ∃ b ∈ items, (box b).Solid ∧ (box a).Borders (box b) := by
  have last := tiles.inside a member _ _ solid.last
  have within : whole.Holds (box a).leave (box a).near := by
    obtain ⟨enter, _, near, far⟩ := last
    exact ⟨by omega, short, near, far⟩
  obtain ⟨b, inB, holds⟩ := tiles.cover _ _ within
  have solidB := holds.solid
  obtain ⟨enter, leave, near, far⟩ := holds
  have meets : (box b).enter = (box a).leave := by
    by_contra differ
    have shared : (box b).Holds ((box a).leave - 1) (box a).near := ⟨by omega, by omega, near, far⟩
    have same := tiles.eq_of_holds member inB solid.last shared
    rw [← same] at leave
    omega
  have across := solid.2
  exact ⟨b, inB, solidB, meets, far, by omega⟩

section

variable {σ : Type} (step : σ → σ) (at_ : σ → α → Prop)

/-- The boxes that end past `edge`. -/
def beyond (box : α → Facing) (items : List α) (edge : Int) : Nat := items.countP fun a => edge < (box a).leave

theorem beyond_lt {edge : Int} (member : b ∈ items) (past : edge < (box b).leave) :
    beyond box items (box b).leave < beyond box items edge := by
  unfold beyond
  induction items with
  | nil => cases member
  | cons c rest ih =>
    have fewer : rest.countP (fun a => (box b).leave < (box a).leave) ≤ rest.countP fun a => edge < (box a).leave := by
      apply List.countP_mono_left
      intro a _ ends
      simp only [decide_eq_true_eq] at ends ⊢
      omega
    simp only [List.countP_cons, decide_eq_true_eq]
    cases List.mem_cons.mp member with
    | inl head =>
      subst head
      rw [if_neg (lt_irrefl _), if_pos past]
      omega
    | inr tail =>
      have less := ih tail
      by_cases ends : (box b).leave < (box c).leave
      · rw [if_pos ends, if_pos (past.trans ends)]
        omega
      · rw [if_neg ends]
        omega

theorem walk (tiles : Tiles box items whole)
    (onward : ∀ s a, at_ s a → a ∈ items → (box a).Solid → (box a).leave < whole.leave →
      ∃ b ∈ items, at_ (step s) b ∧ (box b).Solid ∧ (box a).Borders (box b)) {s : σ} (here : at_ s a)
    (member : a ∈ items) (solid : (box a).Solid) :
    ∃ n < items.length, ∃ b ∈ items, at_ (step^[n] s) b ∧ (box b).Solid ∧ (box b).leave = whole.leave := by
  have ahead : beyond box items (box a).leave < items.length := by
    have last : (box a).leave - 1 < (box a).leave := by omega
    exact (beyond_lt member last).trans_le List.countP_le_length
  suffices walked : ∃ n ≤ beyond box items (box a).leave, ∃ b ∈ items,
      at_ (step^[n] s) b ∧ (box b).Solid ∧ (box b).leave = whole.leave by
    obtain ⟨n, few, rest⟩ := walked
    exact ⟨n, few.trans_lt ahead, rest⟩
  clear ahead
  generalize left : beyond box items (box a).leave = k
  induction k using Nat.strong_induction_on generalizing s a with
  | _ k ih =>
    have upto := tiles.leave_le member solid
    by_cases ends : (box a).leave = whole.leave
    · exact ⟨0, Nat.zero_le _, a, member, here, solid, ends⟩
    · obtain ⟨b, inB, there, solidB, borders⟩ := onward s a here member solid (by omega)
      have past : (box a).leave < (box b).leave := borders.meets ▸ solidB.1
      have fewer := beyond_lt inB past
      rw [left] at fewer
      obtain ⟨n, few, c, inC, arrived, solidC, endC⟩ := ih _ fewer there inB solidB rfl
      exact ⟨n + 1, by omega, c, inC, arrived, solidC, endC⟩

end

end Tiles

section

variable {r : α → α → Prop} [DecidableRel r]

theorem insertionSort_least (key : α → Int) (before : ∀ a b, r a b → key a ≤ key b) (after : ∀ a b, ¬ r a b → key b ≤ key a)
    {items : List α} {a : α} (head : (items.insertionSort r).head? = some a) : ∀ b ∈ items, key a ≤ key b := by
  induction items generalizing a with
  | nil => simp
  | cons c rest ih =>
    intro b member
    rw [List.insertionSort_cons] at head
    cases sorted : rest.insertionSort r with
    | nil =>
      have empty : rest = [] := by
        have perm := List.perm_insertionSort r rest
        rw [sorted] at perm
        exact perm.symm.eq_nil
      subst empty
      rw [sorted] at head
      simp only [List.orderedInsert, List.head?_cons, Option.some.injEq] at head
      have same : b = c := by simpa using member
      rw [same, head]
    | cons d tail =>
      have least := ih (sorted ▸ rfl : (rest.insertionSort r).head? = some d)
      rw [sorted, List.orderedInsert] at head
      by_cases first : r c d
      · rw [if_pos first] at head
        have same : c = a := by simpa using head
        subst same
        cases List.mem_cons.mp member with
        | inl eq => rw [eq]
        | inr inRest => exact (before c d first).trans (least b inRest)
      · rw [if_neg first] at head
        have same : d = a := by simpa using head
        subst same
        cases List.mem_cons.mp member with
        | inl eq => exact eq ▸ after c d first
        | inr inRest => exact least b inRest

end

end Mosaic
