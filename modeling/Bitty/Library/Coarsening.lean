import Mathlib

/-! Families of shapes under containment. Where shapes in contact are merged until none is left, every order of the
merges ends in the same family: the finest of those without contact that are coarser than the first. -/

namespace Coarsening

variable {α : Type} [PartialOrder α] {touches : α → α → Prop} {family xs ys zs : List α} {a b c : α}

/-- A relation of contact: larger shapes keep the contacts of smaller ones. -/
structure Contact (touches : α → α → Prop) : Prop where
  refl : ∀ a, touches a a
  symm : ∀ {a b}, touches a b → touches b a
  mono : ∀ {a b c d}, a ≤ c → b ≤ d → touches a b → touches c d

def Apart (touches : α → α → Prop) (family : List α) : Prop := family.Pairwise fun a b => ¬ touches a b

def Refines (xs ys : List α) : Prop := ∀ x ∈ xs, ∃ y ∈ ys, x ≤ y

theorem Refines.of_subset (subset : ∀ x ∈ xs, x ∈ ys) : Refines xs ys := fun x member => ⟨x, subset x member, le_rfl⟩

theorem Refines.trans (first : Refines xs ys) (second : Refines ys zs) : Refines xs zs := by
  intro x member
  obtain ⟨y, inY, le⟩ := first x member
  obtain ⟨z, inZ, le'⟩ := second y inY
  exact ⟨z, inZ, le.trans le'⟩

/-- The second family comes from the first by merges that every coarser family without contact has made. -/
structure Coarsens (touches : α → α → Prop) (xs ys : List α) : Prop where
  refines : Refines xs ys
  least : ∀ family, Apart touches family → Refines xs family → Refines ys family

namespace Coarsens

theorem of_perm (perm : xs.Perm ys) : Coarsens touches xs ys where
  refines := Refines.of_subset fun _ => perm.mem_iff.mp
  least _ _ refines x member := refines x (perm.mem_iff.mpr member)

theorem trans (first : Coarsens touches xs ys) (second : Coarsens touches ys zs) : Coarsens touches xs zs where
  refines := first.refines.trans second.refines
  least family apart refines := second.least family apart (first.least family apart refines)

theorem cons (tail : Coarsens touches xs ys) : Coarsens touches (a :: xs) (a :: ys) where
  refines x member := by
    rcases List.mem_cons.mp member with rfl | later
    · exact ⟨x, List.mem_cons_self, le_rfl⟩
    · obtain ⟨y, inY, le⟩ := tail.refines x later
      exact ⟨y, List.mem_cons_of_mem _ inY, le⟩
  least family apart refines x member := by
    rcases List.mem_cons.mp member with rfl | later
    · exact refines x List.mem_cons_self
    · exact tail.least family apart (fun y inY => refines y (List.mem_cons_of_mem _ inY)) x later

end Coarsens

section

variable (contact : Contact touches)

include contact

theorem Apart.eq_of_touches (apart : Apart touches family) (inA : a ∈ family) (inB : b ∈ family) (touch : touches a b) :
    a = b := by
  by_contra differ
  have symm : Std.Symm fun a b => ¬ touches a b := ⟨fun _ _ apart touch => apart (contact.symm touch)⟩
  exact List.Pairwise.forall apart inA inB differ touch

theorem Refines.common (refines : Refines xs family) (apart : Apart touches family) (inA : a ∈ xs) (inB : b ∈ xs)
    (touch : touches a b) : ∃ f ∈ family, a ≤ f ∧ b ≤ f := by
  obtain ⟨f, inF, le⟩ := refines a inA
  obtain ⟨g, inG, le'⟩ := refines b inB
  obtain rfl := apart.eq_of_touches contact inF inG (contact.mono le le' touch)
  exact ⟨f, inF, le, le'⟩

theorem Coarsens.merge (touch : touches a b) (left : a ≤ c) (right : b ≤ c) (least : ∀ f, a ≤ f → b ≤ f → c ≤ f) :
    Coarsens touches (a :: b :: xs) (c :: xs) where
  refines x member := by
    rcases List.mem_cons.mp member with rfl | later
    · exact ⟨c, List.mem_cons_self, left⟩
    · rcases List.mem_cons.mp later with rfl | later
      · exact ⟨c, List.mem_cons_self, right⟩
      · exact ⟨x, List.mem_cons_of_mem _ later, le_rfl⟩
  least family apart refines x member := by
    rcases List.mem_cons.mp member with rfl | later
    · obtain ⟨f, inF, le, le'⟩ := refines.common contact apart List.mem_cons_self
        (List.mem_cons_of_mem _ List.mem_cons_self) touch
      exact ⟨f, inF, least f le le'⟩
    · exact refines x (List.mem_cons_of_mem _ (List.mem_cons_of_mem _ later))

end

end Coarsening
