import Bitty.Term.Kitty.Closure

/-! Placements that scroll with the rows they cover. -/

namespace Bitty.Term

open KittyPlacement

namespace PlacementStore

def CoversWithin (top bottom : Nat) (e : KittyPlacement) : Prop :=
  top ≤ e.anchorRow ∧ e.anchorRow + max e.rows 1 ≤ bottom + 1

instance (top bottom : Nat) (e : KittyPlacement) : Decidable (CoversWithin top bottom e) :=
  inferInstanceAs (Decidable (_ ∧ _))

def Rides (top bottom : Nat) (onAlt : Bool) (e : KittyPlacement) : Prop :=
  e.virtualProto = false ∧ e.onAltScreen = onAlt ∧ CoversWithin top bottom e

instance (top bottom : Nat) (onAlt : Bool) (e : KittyPlacement) : Decidable (Rides top bottom onAlt e) :=
  inferInstanceAs (Decidable (_ ∧ _))

/-- A placement goes up with the rows that it covers, or goes where one of them leaves the region. -/
def carriedUp (top bottom n : Nat) (onAlt : Bool) (e : KittyPlacement) : Option KittyPlacement :=
  if Rides top bottom onAlt e then
    if top + n ≤ e.anchorRow then some { e with anchorRow := e.anchorRow - n } else none
  else some e

def carriedDown (top bottom n : Nat) (onAlt : Bool) (e : KittyPlacement) : Option KittyPlacement :=
  if Rides top bottom onAlt e then
    if e.anchorRow + n + max e.rows 1 ≤ bottom + 1 then some { e with anchorRow := e.anchorRow + n } else none
  else some e

def hook (s : PlacementStore) (e : KittyPlacement) : Option (Nat × Nat) :=
  e.parent.filter fun k => s.placements.any (·.key = k)

/-- The placement goes where its rows leave the region, or hangs on placements that all go. -/
def Leaves (carried : KittyPlacement → Option KittyPlacement) (s : PlacementStore) : KittyPlacement → Prop :=
  Cascade.Doomed key s.hook (fun e => carried e = none) s.placements

open scoped Classical in
/-- The store after its placements were carried and those that leave are gone, with those that hang on them. -/
noncomputable def carry (s : PlacementStore) (carried : KittyPlacement → Option KittyPlacement) : PlacementStore :=
  { s with placements := (s.placements.filter fun e => ¬Leaves carried s e).filterMap carried }

def Strays (top bottom : Nat) (onAlt : Bool) (e : KittyPlacement) : Prop :=
  e.virtualProto = false ∧ e.onAltScreen = onAlt ∧ top ≤ bottom + 1 ∧ e.rows = 0 ∧ e.anchorRow = bottom + 1

instance (top bottom : Nat) (onAlt : Bool) (e : KittyPlacement) : Decidable (Strays top bottom onAlt e) :=
  inferInstanceAs (Decidable (_ ∧ _))

/-- What a scroll misplaces goes anyway with one that leaves, and so does what hangs on a key that nothing has; nothing
goes only for the key that it shares with what hangs on those. -/
structure Carries (carried : KittyPlacement → Option KittyPlacement) (misplaced lost : KittyPlacement → Prop)
    (s : PlacementStore) : Prop where
  placed : ∀ e ∈ s.placements, misplaced e → Leaves carried s e
  held : ∀ e ∈ s.placements, Cascade.isOrphan key parent s.placements e → Leaves carried s e
  unmixed : ∀ x ∈ s.placements, ∀ y ∈ s.placements, x.key = y.key → carried x ≠ none → ¬lost x →
    Leaves carried s x → Leaves carried s y

theorem hook_eq_some_iff {s : PlacementStore} {e : KittyPlacement} {k : Nat × Nat} :
    s.hook e = some k ↔ e.parent = some k ∧ ∃ holder ∈ s.placements, holder.key = k := by
  rw [hook, Option.filter_eq_some_iff, List.any_eq_true]
  simp only [decide_eq_true_eq]

section

variable {s : PlacementStore} {f g : KittyPlacement → Option KittyPlacement}

theorem retainMut_kept (keeping : Keeping f) : ∃ keep : KittyPlacement → Bool,
    (s.retainMut f).placements = (s.placements.filter keep).map (moved f) ∧
    (∀ e, keep e = true → f e ≠ none) ∧
    (∀ x y, x.key = y.key → f x ≠ none → f y ≠ none → keep x = keep y) ∧
    Cascade.Closed key parent (s.placements.filter keep) := by
  have byKey : ∃ stays : Nat × Nat → Bool, Cascade.collapse key parent (s.placements.filterMap f).length
      (s.placements.filter fun e => (f e).isSome) =
      (s.placements.filter fun e => (f e).isSome).filter fun e => stays e.key :=
    Cascade.collapse_eq_filter _ _
  obtain ⟨stays, eq⟩ := byKey
  have closed : Cascade.Closed key parent (Cascade.collapse key parent (s.placements.filterMap f).length
      (s.placements.filter fun e => (f e).isSome)) := by
    refine Cascade.collapse_closed (Nat.le_of_eq ?_)
    rw [filterMap_eq_map_filter, List.length_map]
  have eq' : Cascade.collapse key parent (s.placements.filterMap f).length
      (s.placements.filter fun e => (f e).isSome) =
      s.placements.filter fun e => (f e).isSome && stays e.key := by
    rw [eq, List.filter_filter]
    exact List.filter_congr fun e _ => Bool.and_comm ..
  refine ⟨fun e => (f e).isSome && stays e.key, ?_, ?_, ?_, ?_⟩
  · show Cascade.collapse key parent (s.placements.filterMap f).length (s.placements.filterMap f) = _
    rw [← eq', ← Cascade.collapse_map (moved_key keeping) (moved_parent keeping), ← filterMap_eq_map_filter]
  · intro e kept
    exact Option.isSome_iff_ne_none.mp (Bool.and_eq_true_iff.mp kept).1
  · intro x y same someX someY
    show ((f x).isSome && stays x.key) = ((f y).isSome && stays y.key)
    rw [Option.isSome_iff_ne_none.mpr someX, Option.isSome_iff_ne_none.mpr someY, same]
  · rw [← eq']
    exact closed

theorem Leaves.doomed (drops : ∀ e, g e = none → f e = none) {e : KittyPlacement} (leaves : Leaves g s e) :
    Cascade.Doomed key parent (fun e => f e = none) s.placements e := by
  induction leaves with
  | named member none => exact .named member (drops _ none)
  | orphan member hangs _ ih => exact .orphan member (hook_eq_some_iff.mp hangs).1 ih

open scoped Classical in
/-- A scroll that at most takes up placements which should stay is right if and only if each of these goes anyway, and
the cascade takes no other placement. -/
theorem retainMut_eq_carry_iff {lost : KittyPlacement → Prop} (keeping : Keeping f)
    (either : ∀ e, f e = g e ∨ g e = some e) (drops : ∀ e, f e = none ↔ g e = none ∨ lost e) :
    s.retainMut f = s.carry g ↔ Carries g (fun e => f e ≠ g e) lost s := by
  have stays : ∀ e ∈ s.placements, ¬Leaves g s e → g e ≠ none := fun e member safe none => safe (.named member none)
  have doomed {e} (leaves : Leaves g s e) := leaves.doomed fun e none => (drops e).mpr (.inl none)
  have unnamed {x} : f x ≠ none ↔ g x ≠ none ∧ ¬lost x := by
    rw [ne_eq, drops, not_or]
  constructor
  · intro same
    obtain ⟨keep, kept, some, uniform, closed⟩ := retainMut_kept (s := s) keeping
    have named : ∀ e ∈ s.placements, f e = none → keep e = false := fun e _ none =>
      Bool.eq_false_iff.mpr fun held => some e held none
    have unleft : ∀ e, keep e = true → ¬Leaves g s e := fun e held leaves => by
      rw [(doomed leaves).not_kept named closed] at held
      cases held
    have lists : (s.placements.filter keep).map (moved f) =
        (s.placements.filter fun e => ¬Leaves g s e).map (moved g) := by
      have isSome : ((s.placements.filter fun e => ¬Leaves g s e).filter fun e => (g e).isSome) =
          s.placements.filter fun e => ¬Leaves g s e := by
        rw [List.filter_eq_self]
        intro e member
        rw [List.mem_filter, decide_eq_true_eq] at member
        exact Option.isSome_iff_ne_none.mpr (stays e member.1 member.2)
      rw [← kept, same]
      show (s.placements.filter fun e => ¬Leaves g s e).filterMap g = _
      rw [filterMap_eq_map_filter, isSome]
    -- as many placements are kept as should be, and only such
    have held : ∀ e ∈ s.placements, ¬Leaves g s e → keep e = true := by
      have size := congrArg List.length lists
      rw [List.length_map, List.length_map] at size
      have nested : (s.placements.filter fun e => ¬Leaves g s e).filter keep = s.placements.filter keep := by
        rw [List.filter_filter]
        refine List.filter_congr fun e _ => ?_
        cases keepE : keep e with
        | false => rfl
        | true => simp [unleft e keepE]
      rw [← nested, List.length_filter_eq_length_iff] at size
      intro e member stays
      exact size e (List.mem_filter.mpr ⟨member, decide_eq_true stays⟩)
    have filters : s.placements.filter keep = s.placements.filter fun e => ¬Leaves g s e := by
      refine List.filter_congr fun e member => ?_
      by_cases leaves : Leaves g s e
      · have dropped : keep e = false := Bool.eq_false_iff.mpr fun holds => unleft e holds leaves
        simp [dropped, leaves]
      · simp [held e member leaves, leaves]
    rw [filters, List.map_inj_left] at lists
    have first : ∀ e ∈ s.placements, f e ≠ g e → Leaves g s e := by
      intro e member differ
      by_contra safe
      refine differ ?_
      have moves := lists e (List.mem_filter.mpr ⟨member, decide_eq_true safe⟩)
      obtain ⟨a, fromF⟩ := Option.ne_none_iff_exists'.mp (some e (held e member safe))
      obtain ⟨b, fromG⟩ := Option.ne_none_iff_exists'.mp (stays e member safe)
      rw [moved, moved, fromF, fromG, Option.getD_some, Option.getD_some] at moves
      rw [fromF, fromG, moves]
    refine ⟨first, fun e member orphan => ?_, fun x inX y inY sameKey someX found leaves => ?_⟩
    · by_contra safe
      obtain ⟨k, hangs, unheld⟩ := Cascade.isOrphan_iff.mp orphan
      obtain ⟨holder, inside, same⟩ := closed e (List.mem_filter.mpr ⟨member, held e member safe⟩) k hangs
      exact unheld holder (List.mem_of_mem_filter inside) same
    · by_cases none : f y = none
      · rcases either y with same | stays
        · exact .named inY (same ▸ none)
        · refine first y inY ?_
          rw [none, stays]
          exact (Option.some_ne_none y).symm
      · by_contra safe
        have dropped : keep x = false := Bool.eq_false_iff.mpr fun holds => unleft x holds leaves
        rw [uniform x y sameKey (unnamed.mpr ⟨someX, found⟩) none, held y inY safe] at dropped
        cases dropped
  · intro carries
    have same : ∀ e, Cascade.Doomed key parent (fun e => f e = none) s.placements e ↔ Leaves g s e := by
      refine fun e => ⟨fun goes => ?_, doomed⟩
      induction goes with
      | @named x member none =>
        by_cases same : f x = g x
        · exact .named member (same ▸ none)
        · exact carries.placed x member same
      | @orphan x k member hangs _ ih =>
        by_cases holder : ∃ y ∈ s.placements, y.key = k
        · exact .orphan member (hook_eq_some_iff.mpr ⟨hangs, holder⟩) ih
        · refine carries.held x member (Cascade.isOrphan_iff.mpr ⟨k, hangs, fun y inside same => ?_⟩)
          exact holder ⟨y, inside, same⟩
    have separate : Cascade.Separate key parent (fun e => f e = none) s.placements :=
      fun x inX y inY sameKey someX leaves => by
        obtain ⟨stays, found⟩ := unnamed.mp someX
        exact (same y).mpr (carries.unmixed x inX y inY sameKey stays found ((same x).mp leaves))
    have congr : (s.retainMut f).placements = (s.carry g).placements := by
      rw [retainMut_placements keeping separate]
      show _ = (s.placements.filter fun e => ¬Leaves g s e).filterMap g
      simp only [same]
      refine List.filterMap_congr fun e member => ?_
      rw [List.mem_filter, decide_eq_true_eq] at member
      by_contra differ
      exact member.2 (carries.placed e member.1 differ)
    show { s with placements := (s.retainMut f).placements } = _
    rw [congr]
    rfl

end

section

variable {top bottom n : Nat} {onAlt : Bool} {e : KittyPlacement}

theorem isEntirelyWithin_iff (small : bottom + 2 < 2 ^ 32) :
    e.isEntirelyWithin top bottom = true ↔ top ≤ e.anchorRow ∧ e.anchorRow + e.rows ≤ bottom + 1 := by
  rw [isEntirelyWithin, Bool.and_eq_true, decide_eq_true_eq, decide_eq_true_eq, saturatingAdd32]
  omega

theorem Strays.not_rides (strays : Strays top bottom onAlt e) : ¬Rides top bottom onAlt e := by
  obtain ⟨-, -, -, unsized, row⟩ := strays
  rintro ⟨-, -, -, ends⟩
  omega

theorem scrolls_iff (small : bottom + 2 < 2 ^ 32) :
    (e.virtualProto || e.onAltScreen != onAlt || !e.isEntirelyWithin top bottom) = false ↔
      Rides top bottom onAlt e ∨ Strays top bottom onAlt e := by
  rw [Bool.or_eq_false_iff, Bool.or_eq_false_iff, bne_eq_false_iff_eq, Bool.not_eq_false', isEntirelyWithin_iff small]
  constructor
  · rintro ⟨⟨anchored, screen⟩, above, ends⟩
    by_cases covers : e.anchorRow + max e.rows 1 ≤ bottom + 1
    · exact .inl ⟨anchored, screen, above, covers⟩
    · exact .inr ⟨anchored, screen, by omega, by omega, by omega⟩
  · rintro (⟨anchored, screen, above, covers⟩ | ⟨anchored, screen, region, unsized, row⟩)
    · exact ⟨⟨anchored, screen⟩, above, by omega⟩
    · exact ⟨⟨anchored, screen⟩, by omega, by omega⟩

theorem scrolledUp_eq (small : bottom + 2 < 2 ^ 32) : scrolledUp top bottom n onAlt e =
    if Strays top bottom onAlt e then
      if top + n ≤ e.anchorRow then some { e with anchorRow := e.anchorRow - n } else none
    else carriedUp top bottom n onAlt e := by
  have clip : (decide (n ≤ e.anchorRow) && decide (top ≤ e.anchorRow - n)) = true ↔ top + n ≤ e.anchorRow := by
    rw [Bool.and_eq_true, decide_eq_true_eq, decide_eq_true_eq]
    omega
  have scrolls := @scrolls_iff top bottom onAlt e small
  unfold scrolledUp carriedUp
  simp only [clip]
  by_cases strays : Strays top bottom onAlt e
  · rw [if_pos strays, if_neg (by rw [scrolls.mpr (.inr strays)]; exact Bool.false_ne_true)]
  rw [if_neg strays]
  by_cases rides : Rides top bottom onAlt e
  · rw [if_pos rides, if_neg (by rw [scrolls.mpr (.inl rides)]; exact Bool.false_ne_true)]
  · rw [if_neg rides, if_pos]
    by_contra moves
    exact (scrolls.mp (Bool.eq_false_iff.mpr moves)).elim rides strays

theorem scrolledDown_eq (small : bottom + 2 < 2 ^ 32) : scrolledDown top bottom n onAlt e =
    if Strays top bottom onAlt e then none else carriedDown top bottom n onAlt e := by
  have scrolls := @scrolls_iff top bottom onAlt e small
  unfold scrolledDown carriedDown
  by_cases strays : Strays top bottom onAlt e
  · have below : ¬(decide (saturatingAdd32 e.anchorRow n ≤ bottom) &&
        decide (saturatingAdd32 (saturatingAdd32 e.anchorRow n) e.rows ≤ bottom + 1)) = true := by
      obtain ⟨-, -, -, -, row⟩ := strays
      rw [Bool.and_eq_true, decide_eq_true_eq, decide_eq_true_eq, saturatingAdd32]
      omega
    rw [if_pos strays, if_neg (by rw [scrolls.mpr (.inr strays)]; exact Bool.false_ne_true)]
    exact if_neg below
  rw [if_neg strays]
  by_cases rides : Rides top bottom onAlt e
  · have clip : (decide (saturatingAdd32 e.anchorRow n ≤ bottom) &&
        decide (saturatingAdd32 (saturatingAdd32 e.anchorRow n) e.rows ≤ bottom + 1)) = true ↔
        e.anchorRow + n + max e.rows 1 ≤ bottom + 1 := by
      rw [Bool.and_eq_true, decide_eq_true_eq, decide_eq_true_eq]
      simp only [saturatingAdd32]
      omega
    rw [if_pos rides, if_neg (by rw [scrolls.mpr (.inl rides)]; exact Bool.false_ne_true)]
    simp only [clip]
    by_cases room : e.anchorRow + n + max e.rows 1 ≤ bottom + 1
    · have row : saturatingAdd32 e.anchorRow n = e.anchorRow + n := by
        unfold saturatingAdd32
        omega
      rw [if_pos room, if_pos room, row]
    · rw [if_neg room, if_neg room]
  · rw [if_neg rides, if_pos]
    by_contra moves
    exact (scrolls.mp (Bool.eq_false_iff.mpr moves)).elim rides strays

theorem carried_of_not_rides (rests : ¬Rides top bottom onAlt e) :
    carriedUp top bottom n onAlt e = some e ∧ carriedDown top bottom n onAlt e = some e :=
  ⟨if_neg rests, if_neg rests⟩

theorem scrolledUp_ne_iff (small : bottom + 2 < 2 ^ 32) :
    scrolledUp top bottom n onAlt e ≠ carriedUp top bottom n onAlt e ↔ Strays top bottom onAlt e ∧ n ≠ 0 := by
  rw [scrolledUp_eq small]
  by_cases strays : Strays top bottom onAlt e
  · rw [if_pos strays, (carried_of_not_rides strays.not_rides).1]
    have ⟨_, _, region, _, row⟩ := strays
    by_cases stays : top + n ≤ e.anchorRow
    · rw [if_pos stays, ne_eq, Option.some_inj]
      constructor
      · intro moves
        refine ⟨strays, fun zero => moves ?_⟩
        rw [zero]
        rfl
      · rintro ⟨-, some⟩ same
        have rows := congrArg anchorRow same
        dsimp only at rows
        omega
    · rw [if_neg stays]
      refine ⟨fun _ => ⟨strays, by omega⟩, fun _ => nofun⟩
  · rw [if_neg strays]
    simp [strays]

theorem scrolledUp_eq_none_iff (small : bottom + 2 < 2 ^ 32) : scrolledUp top bottom n onAlt e = none ↔
    carriedUp top bottom n onAlt e = none ∨ Strays top bottom onAlt e ∧ bottom + 1 < top + n := by
  rw [scrolledUp_eq small]
  by_cases strays : Strays top bottom onAlt e
  · rw [if_pos strays, (carried_of_not_rides strays.not_rides).1]
    have row := strays.2.2.2.2
    simp [strays, row]
  · simp [strays]

theorem scrolledDown_ne_iff (small : bottom + 2 < 2 ^ 32) :
    scrolledDown top bottom n onAlt e ≠ carriedDown top bottom n onAlt e ↔ Strays top bottom onAlt e := by
  rw [scrolledDown_eq small]
  by_cases strays : Strays top bottom onAlt e
  · simp [strays, (carried_of_not_rides strays.not_rides).2]
  · simp [strays]

theorem scrolledDown_eq_none_iff (small : bottom + 2 < 2 ^ 32) : scrolledDown top bottom n onAlt e = none ↔
    carriedDown top bottom n onAlt e = none ∨ Strays top bottom onAlt e := by
  rw [scrolledDown_eq small]
  by_cases strays : Strays top bottom onAlt e <;> simp [strays]

end

theorem Carries.congr {carried : KittyPlacement → Option KittyPlacement}
    {misplaced misplaced' lost : KittyPlacement → Prop} {s : PlacementStore} (same : ∀ e, misplaced e ↔ misplaced' e) :
    Carries carried misplaced lost s ↔ Carries carried misplaced' lost s :=
  ⟨fun carries => ⟨fun e member stray => carries.placed e member ((same e).mpr stray), carries.held, carries.unmixed⟩,
    fun carries => ⟨fun e member stray => carries.placed e member ((same e).mp stray), carries.held, carries.unmixed⟩⟩

/-- Scrolling takes the placements along with the rows that they cover, and drops those whose rows leave the region with
what hangs on them, exactly if no unsized placement under the region is caught and the cascade takes nothing else. -/
theorem scroll_carries_iff (s : PlacementStore) (top bottom n : Nat) (onAlt : Bool) (small : bottom + 2 < 2 ^ 32) :
    (s.scrollUp top bottom n onAlt = s.carry (carriedUp top bottom n onAlt) ↔
      Carries (carriedUp top bottom n onAlt) (fun e => Strays top bottom onAlt e ∧ n ≠ 0)
        (fun e => Strays top bottom onAlt e ∧ bottom + 1 < top + n) s) ∧
    (s.scrollDown top bottom n onAlt = s.carry (carriedDown top bottom n onAlt) ↔
      Carries (carriedDown top bottom n onAlt) (Strays top bottom onAlt) (Strays top bottom onAlt) s) := by
  constructor
  · refine (retainMut_eq_carry_iff (s.fate_keeping (.scrollUp top bottom n onAlt)) (fun e => ?_)
      fun e => scrolledUp_eq_none_iff small).trans (Carries.congr fun e => scrolledUp_ne_iff small)
    by_cases strays : Strays top bottom onAlt e
    · exact .inr (carried_of_not_rides strays.not_rides).1
    · exact .inl ((scrolledUp_eq small).trans (if_neg strays))
  · refine (retainMut_eq_carry_iff (s.fate_keeping (.scrollDown top bottom n onAlt)) (fun e => ?_)
      fun e => scrolledDown_eq_none_iff small).trans (Carries.congr fun e => scrolledDown_ne_iff small)
    by_cases strays : Strays top bottom onAlt e
    · exact .inr (carried_of_not_rides strays.not_rides).2
    · exact .inl ((scrolledDown_eq small).trans (if_neg strays))

def sized : KittyPlacement := { addressed with anchorRow := 6 }

theorem scroll_carries_iff_sized :
    (run [.upsert sized]).scrollUp 2 8 2 false = (run [.upsert sized]).carry (carriedUp 2 8 2 false) := by
  have only : ∀ e ∈ (run [.upsert sized]).placements, e = sized := by decide
  refine (scroll_carries_iff _ 2 8 2 false (by decide)).1.mpr ⟨fun e member stray => ?_, fun e member orphan => ?_,
    fun x inX y inY _ _ _ leaves => ?_⟩
  · rw [only e member] at stray
    exact absurd stray.1 (by decide)
  · rw [only e member] at orphan
    exact absurd orphan (by decide)
  · rw [only y inY]
    rw [only x inX] at leaves
    exact leaves

def unsized : KittyPlacement := { addressed with anchorRow := 9, rows := 0 }

theorem scrollUp_unsized : ¬CoversWithin 2 8 unsized ∧
    (run [.upsert unsized]).scrollUp 2 8 2 false ≠ (run [.upsert unsized]).carry (carriedUp 2 8 2 false) ∧
    ((run [.upsert unsized]).scrollUp 2 8 2 false).placements = [{ unsized with anchorRow := 7 }] := by
  refine ⟨by decide, fun same => ?_, by decide⟩
  have stays : ¬Leaves (carriedUp 2 8 2 false) (run [.upsert unsized]) unsized := by
    intro leaves
    cases leaves with
    | named _ none => exact absurd none (by decide)
    | orphan _ hangs _ =>
      rw [show (run [.upsert unsized]).hook unsized = none by decide] at hangs
      cases hangs
  have there : unsized ∈ ((run [.upsert unsized]).carry (carriedUp 2 8 2 false)).placements := by
    simp only [carry, List.mem_filterMap]
    exact ⟨unsized, List.mem_filter.mpr ⟨by decide, by simpa using stays⟩, by decide⟩
  rw [← same] at there
  exact absurd there (by decide)

end PlacementStore

end Bitty.Term
