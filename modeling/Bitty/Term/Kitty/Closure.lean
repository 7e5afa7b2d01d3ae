import Bitty.Term.Kitty.Placement

namespace Bitty.Term

open KittyPlacement

namespace PlacementStore

inductive Op
  | upsert (placement : KittyPlacement)
  | remove (imageId placementId : Nat)
  | applyDelete (selector : KittyDeleteSelector) (cursor : Nat × Nat) (onAlt freeData : Bool)
  | scrollUp (top bottom n : Nat) (onAlt : Bool)
  | scrollDown (top bottom n : Nat) (onAlt : Bool)
  | resizeHeight (newRows : Nat) (shift : Int) (onAlt : Bool)
  | clearAnchored
  | clearScreen (onAlt : Bool)
  | registerNumber (number imageId : Nat)

def step (s : PlacementStore) : Op → PlacementStore
  | .upsert placement => (s.upsert placement).1
  | .remove imageId placementId => (s.remove imageId placementId).1
  | .applyDelete selector cursor onAlt freeData => (s.applyDelete selector cursor onAlt freeData).1
  | .scrollUp top bottom n onAlt => s.scrollUp top bottom n onAlt
  | .scrollDown top bottom n onAlt => s.scrollDown top bottom n onAlt
  | .resizeHeight newRows shift onAlt => s.resizeHeight newRows shift onAlt
  | .clearAnchored => s.clearAnchored
  | .clearScreen onAlt => s.clearScreen onAlt
  | .registerNumber number imageId => s.registerNumber number imageId

def run (ops : List Op) : PlacementStore := ops.foldl step .new

/-- What the operation's own selection makes of an entry: nothing, when it names it. -/
def fate (s : PlacementStore) : Op → KittyPlacement → Option KittyPlacement
  | .upsert _ => some
  | .remove imageId placementId => fun e => if e.imageId = imageId && e.placementId = placementId then none else some e
  | .applyDelete selector cursor onAlt _ => fun e => if s.keeps selector cursor onAlt e then some e else none
  | .scrollUp top bottom n onAlt => scrolledUp top bottom n onAlt
  | .scrollDown top bottom n onAlt => scrolledDown top bottom n onAlt
  | .resizeHeight newRows shift onAlt => resized newRows shift onAlt
  | .clearAnchored => fun e => if e.virtualProto then some e else none
  | .clearScreen onAlt => fun e => if e.onAltScreen != onAlt then some e else none
  | .registerNumber .. => some

def Selected (s : PlacementStore) (op : Op) (e : KittyPlacement) : Prop := s.fate op e = none

def Goes (s : PlacementStore) (op : Op) : KittyPlacement → Prop :=
  Cascade.Doomed key parent (s.Selected op) s.placements

def Overflows (s : PlacementStore) (placement : KittyPlacement) : Prop :=
  s.replaces (normalized placement) = false ∧ KITTY_PLACE_MAX_PLACEMENTS ≤ s.len

open scoped Classical in
/-- The entries the operation should leave, in their order: without those that go, and a new one last, where the
single oldest entry goes from a full store with the descendants it has. -/
noncomputable def left (s : PlacementStore) : Op → List KittyPlacement
  | .upsert placement =>
    let p := normalized placement
    let rest := s.placements.tail ++ [p]
    if s.replaces p then s.placements.map fun e => if e.key = p.key then p else e
    else if KITTY_PLACE_MAX_PLACEMENTS ≤ s.len then
      rest.filter fun e => ¬ Cascade.Doomed key parent (fun _ => False) rest e
    else s.placements ++ [p]
  | op => (s.placements.filter fun e => ¬ s.Goes op e).filterMap (s.fate op)

/-- What is asked of the store: the cap, one entry an addressed key, and the parent of every relative entry. -/
structure Sound (s : PlacementStore) : Prop where
  cap : s.len ≤ KITTY_PLACE_MAX_PLACEMENTS
  unique : s.placements.Pairwise fun e f => e.isReplaceable → e.key ≠ f.key
  closed : Cascade.Closed key parent s.placements

def Admissible (s : PlacementStore) : Op → Prop
  | .upsert placement => ∀ k, placement.parent = some k → (s.resolveParent k.1 k.2).isSome
  | _ => True

/-- The operation avoids the paths that lose count of parents: the exact parent of a new placement is there, a
full store does not lose the last holder of a parent's key, and what goes as an orphan shares no key with what stays. -/
def Careful (s : PlacementStore) : Op → Prop
  | .upsert placement =>
    (∀ k, placement.parent = some k → (s.get k.1 k.2).isSome) ∧
      (s.Overflows placement → ∀ e rest, s.placements = e :: rest →
        ∀ f ∈ rest ++ [normalized placement], f.parent = some e.key → ∃ g ∈ rest ++ [normalized placement], g.key = e.key)
  | op => Cascade.Separate key parent (s.Selected op) s.placements

def Distinct (e f : KittyPlacement) : Prop := e.isReplaceable → e.key ≠ f.key

def Keeping (f : KittyPlacement → Option KittyPlacement) : Prop :=
  ∀ e e', f e = some e' → e'.key = e.key ∧ e'.parent = e.parent

theorem isReplaceable_congr {e f : KittyPlacement} (same : e.key = f.key) : e.isReplaceable = f.isReplaceable := by
  simp only [key, Prod.mk.injEq] at same
  simp [isReplaceable, same.1, same.2]

theorem fate_keeping (s : PlacementStore) (op : Op) : Keeping (s.fate op) := by
  intro e e' same
  cases op <;> simp only [fate, scrolledUp, scrolledDown, resized] at same
  all_goals
    repeat' split at same
    all_goals first
      | cases same; exact ⟨rfl, rfl⟩
      | cases same

section

variable {s : PlacementStore} {f : KittyPlacement → Option KittyPlacement}

def moved (f : KittyPlacement → Option KittyPlacement) (e : KittyPlacement) : KittyPlacement := (f e).getD e

theorem moved_key (keeping : Keeping f) (e : KittyPlacement) : (moved f e).key = e.key := by
  unfold moved
  cases same : f e with
  | none => rfl
  | some e' => exact (keeping e e' same).1

theorem moved_parent (keeping : Keeping f) (e : KittyPlacement) : (moved f e).parent = e.parent := by
  unfold moved
  cases same : f e with
  | none => rfl
  | some e' => exact (keeping e e' same).2

theorem filterMap_eq_map_filter (f : KittyPlacement → Option KittyPlacement) (xs : List KittyPlacement) :
    xs.filterMap f = (xs.filter fun e => (f e).isSome).map (moved f) := by
  induction xs with
  | nil => rfl
  | cons e rest ih =>
    cases same : f e with
    | none => simp [same, ih]
    | some e' => simp [same, ih, moved]

open scoped Classical in
theorem retainMut_placements (keeping : Keeping f)
    (separate : Cascade.Separate key parent (fun e => f e = none) s.placements) :
    (s.retainMut f).placements =
      (s.placements.filter fun e => ¬ Cascade.Doomed key parent (fun e => f e = none) s.placements e).filterMap f := by
  have doomed := @Cascade.collapse_filter _ _ _ key parent s.placements _ separate _ (fun e => (f e).isSome)
    (Nat.le_refl _) (fun e _ gone => by simp [gone]) (fun e member gone => .named member (by simpa using gone))
  simp only [retainMut, cascadeOrphans, len]
  rw [filterMap_eq_map_filter, List.length_map, Cascade.collapse_map (moved_key keeping) (moved_parent keeping), doomed,
    filterMap_eq_map_filter, List.filter_filter]
  congr 1
  refine List.filter_congr fun e member => ?_
  by_cases safe : Cascade.Doomed key parent (fun e => f e = none) s.placements e
  · simp [safe]
  · have stays : (f e).isSome := by
      rw [Option.isSome_iff_ne_none]
      exact fun gone => safe (.named member gone)
    simp [safe, stays]

theorem retainMut_sound (keeping : Keeping f) (sound : s.Sound) : (s.retainMut f).Sound := by
  have sub : (s.retainMut f).placements.Sublist (s.placements.filterMap f) := Cascade.collapse_sublist _ _
  refine ⟨?_, ?_, Cascade.collapse_closed (Nat.le_refl _)⟩
  · have shorter := Nat.le_trans sub.length_le (List.length_filterMap_le f s.placements)
    exact Nat.le_trans shorter sound.cap
  · refine List.Pairwise.sublist sub ?_
    rw [List.pairwise_filterMap]
    refine sound.unique.imp fun {a b} distinct a' same b' same' replaceable => ?_
    obtain ⟨key₁, -⟩ := keeping a a' same
    obtain ⟨key₂, -⟩ := keeping b b' same'
    rw [key₁, key₂]
    exact distinct (isReplaceable_congr key₁ ▸ replaceable)

theorem filter_eq_filterMap (p : KittyPlacement → Bool) (xs : List KittyPlacement) :
    xs.filter p = xs.filterMap fun e => if p e then some e else none := by
  rw [← List.filterMap_eq_filter]
  rfl

theorem cascadeOrphans_placements (s : PlacementStore) :
    s.cascadeOrphans.placements = Cascade.collapse key parent s.placements.length s.placements := rfl

theorem pruneDataWithoutPlacements_placements (s : PlacementStore) (only : Option Nat) :
    (s.pruneDataWithoutPlacements only).placements = s.placements := by
  unfold pruneDataWithoutPlacements
  cases only with
  | none => rfl
  | some id =>
    dsimp only
    split <;> rfl

theorem registerNumber_placements (s : PlacementStore) (number imageId : Nat) :
    (s.registerNumber number imageId).placements = s.placements := by
  unfold registerNumber
  split <;> rfl

theorem step_placements (closed : Cascade.Closed key parent s.placements) {op : Op}
    (other : ∀ placement, op ≠ .upsert placement) :
    (s.step op).placements = (s.retainMut (s.fate op)).placements := by
  cases op with
  | upsert placement => exact absurd rfl (other placement)
  | remove imageId placementId =>
    simp only [step, remove, fate, retainMut]
    set rest := s.placements.filter fun e => !(e.imageId = imageId && e.placementId = placementId) with kept
    have same : (s.placements.filterMap fun e => if (e.imageId = imageId && e.placementId = placementId) = true then none
        else some e) = rest := by
      rw [kept, filter_eq_filterMap]
      refine List.filterMap_congr fun e _ => ?_
      cases (e.imageId = imageId && e.placementId = placementId : Bool) <;> rfl
    rw [same]
    split
    · rfl
    · rename_i unremoved
      simp only [len, ne_eq, not_not] at unremoved
      have all : rest = s.placements := List.filter_sublist.eq_of_length unremoved
      rw [cascadeOrphans_placements]
      simp only [all]
      exact (Cascade.collapse_of_closed _ closed).symm
  | applyDelete selector cursor onAlt freeData =>
    simp only [step, applyDelete, fate, retainMut]
    have same : ∀ t : PlacementStore, (if freeData then t.pruneDataWithoutPlacements (s.killAnimationOf selector)
        else t).placements = t.placements := fun t => by
      cases freeData
      · rfl
      · exact pruneDataWithoutPlacements_placements t _
    rw [same, cascadeOrphans_placements, cascadeOrphans_placements]
    simp only [filter_eq_filterMap]
  | scrollUp top bottom n onAlt => rfl
  | scrollDown top bottom n onAlt => rfl
  | resizeHeight newRows shift onAlt => rfl
  | clearAnchored => simp only [step, clearAnchored, retainMut, fate, cascadeOrphans_placements, filter_eq_filterMap]
  | clearScreen onAlt => simp only [step, clearScreen, retainMut, fate, cascadeOrphans_placements, filter_eq_filterMap]
  | registerNumber number imageId =>
    simp only [step, registerNumber_placements, fate, retainMut, cascadeOrphans_placements, List.filterMap_some]
    exact (Cascade.collapse_of_closed _ closed).symm

end

variable {s : PlacementStore}

theorem get_isSome {k : Nat × Nat} (there : (s.get k.1 k.2).isSome) : ∃ e ∈ s.placements, e.key = k := by
  rw [get, List.find?_isSome] at there
  obtain ⟨e, member, same⟩ := there
  refine ⟨e, member, ?_⟩
  simpa [key, Prod.ext_iff] using same

section

variable {s : PlacementStore} {p : KittyPlacement}

variable {xs : List KittyPlacement}

theorem replaceFirst_eq_map (real : p.isReplaceable) (unique : xs.Pairwise Distinct) :
    replaceFirst (·.key = p.key) p xs = xs.map fun e => if e.key = p.key then p else e := by
  induction xs with
  | nil => rfl
  | cons e rest ih =>
    rw [List.pairwise_cons] at unique
    by_cases same : e.key = p.key
    · have others : rest.map (fun f => if f.key = p.key then p else f) = rest := by
        refine (List.map_congr_left fun f member => ?_).trans (List.map_id rest)
        have apart := unique.1 f member (isReplaceable_congr same ▸ real)
        rw [if_neg fun eq => apart (same.trans eq.symm)]
        rfl
      simp [replaceFirst, same, others]
    · simp [replaceFirst, same, ih unique.2]

theorem replace_key {e : KittyPlacement} : (if e.key = p.key then p else e).key = e.key := by
  split
  · rename_i same
    exact same.symm
  · rfl

theorem replaced_sound (sound : s.Sound) (parented : ∀ k, p.parent = some k → ∃ e ∈ s.placements, e.key = k)
    {t : PlacementStore} (same : t.placements = s.placements.map fun e => if e.key = p.key then p else e) : t.Sound := by
  have held : ∀ k, (∃ e ∈ s.placements, e.key = k) → ∃ e ∈ t.placements, e.key = k := by
    rintro k ⟨e, member, rfl⟩
    exact ⟨_, same ▸ List.mem_map_of_mem member, replace_key⟩
  refine ⟨by rw [len, same, List.length_map]; exact sound.cap, ?_, ?_⟩
  · rw [same, List.pairwise_map]
    refine sound.unique.imp fun {a b} distinct real => ?_
    rw [replace_key, replace_key]
    exact distinct (isReplaceable_congr replace_key ▸ real)
  · intro e member k hangs
    rw [same, List.mem_map] at member
    obtain ⟨f, inside, rfl⟩ := member
    refine held k ?_
    split at hangs
    · exact parented k hangs
    · exact sound.closed f inside k hangs

theorem appended_sound (room : xs.length < KITTY_PLACE_MAX_PLACEMENTS)
    (unique : xs.Pairwise Distinct) (fresh : ∀ e ∈ xs, e.isReplaceable → e.key ≠ p.key)
    (closed : Cascade.Closed key parent (xs ++ [p])) {t : PlacementStore} (same : t.placements = xs ++ [p]) : t.Sound := by
  refine ⟨?_, ?_, same ▸ closed⟩
  · rw [len, same, List.length_append, List.length_singleton]
    exact room
  · rw [same, List.pairwise_append]
    refine ⟨unique, List.pairwise_singleton _ _, fun e member f last => ?_⟩
    rw [List.mem_singleton.mp last]
    exact fresh e member

theorem fresh_of_not_replaces (appends : s.replaces p = false) {e : KittyPlacement} (member : e ∈ s.placements)
    (real : e.isReplaceable) : e.key ≠ p.key := by
  intro same
  have there : s.placements.any (·.key = p.key) := List.any_eq_true.mpr ⟨e, member, by simpa using same⟩
  rw [replaces, ← isReplaceable_congr same, real, there] at appends
  cases appends

open scoped Classical in
theorem filter_of_closed (closed : Cascade.Closed key parent xs) :
    xs.filter (fun e => ¬ Cascade.Doomed key parent (fun _ => False) xs e) = xs := by
  rw [List.filter_eq_self]
  intro e _
  simp only [decide_not, Bool.not_eq_true', decide_eq_false_iff_not]
  intro doomed
  have all : Cascade.Closed key parent (xs.filter fun _ => true) := by rwa [List.filter_true]
  have kept : true = false := doomed.not_kept (fun _ _ named => named.elim) all
  cases kept

end

/-- An insertion that keeps track of parents. -/
theorem upsert_sound (placement : KittyPlacement) (sound : s.Sound) (careful : s.Careful (.upsert placement)) :
    (s.step (.upsert placement)).Sound ∧ (s.step (.upsert placement)).placements = s.left (.upsert placement) := by
  obtain ⟨exact_parent, not_last⟩ := careful
  have hangs : (normalized placement).parent = placement.parent := by
    unfold normalized
    split <;> rfl
  have parented : ∀ k, (normalized placement).parent = some k → ∃ e ∈ s.placements, e.key = k :=
    fun k same => get_isSome (exact_parent k (hangs ▸ same))
  simp only [step, upsert, left]
  unfold Overflows at not_last
  generalize normalized placement = p at hangs parented not_last ⊢
  by_cases replaced : s.replaces p = true
  · have real : p.isReplaceable := by
      rw [replaces, Bool.and_eq_true] at replaced
      exact replaced.1
    have same := replaceFirst_eq_map real sound.unique
    rw [if_pos replaced, if_pos replaced]
    exact ⟨replaced_sound sound parented same, same⟩
  · rw [if_neg replaced, if_neg replaced]
    have appends : s.replaces p = false := by simpa using replaced
    by_cases full : KITTY_PLACE_MAX_PLACEMENTS ≤ s.len
    · rw [if_pos full, if_pos full]
      obtain ⟨oldest, rest, all⟩ : ∃ e rest, s.placements = e :: rest := by
        refine List.exists_cons_of_ne_nil fun none => ?_
        rw [len, none] at full
        cases full
      have held : ∀ f ∈ rest ++ [p], ∀ k, f.parent = some k → (∃ e ∈ s.placements, e.key = k) →
          ∃ g ∈ rest ++ [p], g.key = k := by
        rintro f member k same ⟨e, there, rfl⟩
        rw [all, List.mem_cons] at there
        rcases there with rfl | there
        · exact not_last ⟨appends, full⟩ e rest all f member same
        · exact ⟨e, List.mem_append_left _ there, rfl⟩
      have closed : Cascade.Closed key parent (rest ++ [p]) := by
        intro f member k same
        refine held f member k same ?_
        rcases List.mem_append.mp member with inRest | last
        · exact sound.closed f (all ▸ List.mem_cons_of_mem _ inRest) k same
        · rw [List.mem_singleton.mp last] at same
          exact parented k same
      have tail : s.placements.tail = rest := by rw [all, List.tail_cons]
      have cap := sound.cap
      rw [len, all, List.length_cons] at cap
      have unique := sound.unique
      rw [all, List.pairwise_cons] at unique
      have fresh : ∀ e ∈ rest, e.isReplaceable → e.key ≠ p.key :=
        fun e member => fresh_of_not_replaces appends (all ▸ List.mem_cons_of_mem _ member)
      have whole : s.placements.tail ++ [p] = rest ++ [p] := by rw [tail]
      exact ⟨appended_sound (by omega) unique.2 fresh closed whole, (filter_of_closed (whole ▸ closed)).symm⟩
    · rw [if_neg full, if_neg full]
      refine ⟨appended_sound (Nat.not_le.mp full) sound.unique (fun e => fresh_of_not_replaces appends) ?_ rfl, rfl⟩
      intro f member k same
      have there : ∃ e ∈ s.placements, e.key = k := by
        rcases List.mem_append.mp member with inside | last
        · exact sound.closed f inside k same
        · rw [List.mem_singleton.mp last] at same
          exact parented k same
      obtain ⟨e, inside, eq⟩ := there
      exact ⟨e, List.mem_append_left _ inside, eq⟩

theorem Sound.congr {t : PlacementStore} (same : t.placements = s.placements) (sound : s.Sound) : t.Sound := by
  obtain ⟨cap, unique, closed⟩ := sound
  exact ⟨by rw [len, same]; exact cap, by rw [same]; exact unique, by rw [same]; exact closed⟩

theorem step_sound (op : Op) (sound : s.Sound) (careful : s.Careful op) :
    (s.step op).Sound ∧ (s.step op).placements = s.left op := by
  by_cases insertion : ∃ placement, op = .upsert placement
  · obtain ⟨placement, rfl⟩ := insertion
    exact upsert_sound placement sound careful
  · have other : ∀ placement, op ≠ .upsert placement := fun placement same => insertion ⟨placement, same⟩
    have placements := step_placements sound.closed other
    refine ⟨(retainMut_sound (fate_keeping s op) sound).congr placements, ?_⟩
    rw [placements]
    cases op with
    | upsert placement => exact absurd rfl (other placement)
    | _ => exact retainMut_placements (fate_keeping s _) careful

theorem new_sound : new.Sound := ⟨by decide, List.Pairwise.nil, fun _ member => by cases member⟩

def Admits (ops : List Op) : Prop := ∀ before op after, ops = before ++ op :: after → (run before).Admissible op

def Conforms (ops : List Op) : Prop := ∀ before op after, ops = before ++ op :: after → (run before).Careful op

theorem run_append (ops : List Op) (op : Op) : run (ops ++ [op]) = (run ops).step op := by
  simp [run]

/-- In a run of careful operations every store is sound, and every operation leaves what it should. -/
theorem run_sound {ops : List Op} (conforms : Conforms ops) :
    (run ops).Sound ∧ ∀ before op after, ops = before ++ op :: after →
      (run before).Sound ∧ (run (before ++ [op])).placements = (run before).left op := by
  have reached : ∀ before after, ops = before ++ after → (run before).Sound := by
    intro before
    induction before using List.reverseRecOn with
    | nil => exact fun _ _ => new_sound
    | append_singleton before op ih =>
      intro after split
      rw [List.append_assoc] at split
      rw [run_append]
      exact (step_sound op (ih _ split) (conforms before op after split)).1
  refine ⟨reached ops [] (by simp), fun before op after split => ?_⟩
  have sound := reached before _ split
  refine ⟨sound, ?_⟩
  rw [run_append]
  exact (step_sound op sound (conforms before op after split)).2

def addressed : KittyPlacement :=
  { imageId := 1, placementId := 1, anchorRow := 0, anchorCol := 0, rows := 2, cols := 3, zIndex := 0,
    virtualProto := false, parent := none, parentOffset := (0, 0), onAltScreen := false }

def anonymous : KittyPlacement := { addressed with imageId := 2, placementId := 0 }

def relative : KittyPlacement := { anonymous with parent := some (1, 1) }

theorem run_sound_pair : (run [.upsert addressed, .upsert relative, .remove 1 1]).Sound := by
  refine (@run_sound [.upsert addressed, .upsert relative, .remove 1 1] ?_).1
  intro before op after split
  rcases before with _ | ⟨first, _ | ⟨second, _ | ⟨third, rest⟩⟩⟩
  · cases split
    exact ⟨by decide, fun ⟨_, full⟩ => absurd full (by decide)⟩
  · cases split
    refine ⟨fun k same => ?_, fun ⟨_, full⟩ => absurd full (by decide)⟩
    cases same
    decide
  · cases split
    have keys : ∀ x ∈ (run [.upsert addressed, .upsert relative]).placements,
        ∀ y ∈ (run [.upsert addressed, .upsert relative]).placements, x.key = y.key → x = y := by decide
    intro x inX y inY same _ doomed
    exact keys x inX y inY same ▸ doomed
  · have length := congrArg List.length split
    simp at length

/-- Removing a parent takes an unrelated anonymous placement along with its child, and a full store drops a parent and
keeps the child. -/
theorem run_unsound :
    Admits [.upsert addressed, .upsert anonymous, .upsert relative, .remove 1 1] ∧
    anonymous ∈ (run [.upsert addressed, .upsert anonymous, .upsert relative]).left (.remove 1 1) ∧
    (run [.upsert addressed, .upsert anonymous, .upsert relative, .remove 1 1]).placements = [] ∧
    Admits (.upsert addressed :: .upsert relative :: List.replicate 255 (.upsert anonymous)) ∧
    ¬ (run (.upsert addressed :: .upsert relative :: List.replicate 255 (.upsert anonymous))).Sound := by
  refine ⟨?_, ?_, by decide, ?_, ?_⟩
  · intro before op after split
    rcases before with _ | ⟨first, _ | ⟨second, _ | ⟨third, _ | ⟨fourth, rest⟩⟩⟩⟩
    · cases split
      exact fun k same => by cases same
    · cases split
      exact fun k same => by cases same
    · cases split
      intro k same
      cases same
      decide
    · cases split
      trivial
    · have length := congrArg List.length split
      simp at length
  · have stays : ¬ (run [.upsert addressed, .upsert anonymous, .upsert relative]).Goes (.remove 1 1) anonymous := by
      intro goes
      cases goes with
      | named _ selected => cases selected
      | orphan _ hangs _ => cases hangs
    simp only [left, List.mem_filterMap]
    exact ⟨anonymous, List.mem_filter.mpr ⟨by decide, by simpa using stays⟩, rfl⟩
  · intro before op after split
    rcases before with _ | ⟨first, _ | ⟨second, rest⟩⟩
    · cases split
      exact fun k same => by cases same
    · cases split
      intro k same
      cases same
      decide
    · have member : op ∈ List.replicate 255 (Op.upsert anonymous) := by
        simp only [List.cons_append, List.cons.injEq] at split
        rw [split.2.2]
        exact List.mem_append_right _ List.mem_cons_self
      rw [List.eq_of_mem_replicate member]
      exact fun k same => by cases same
  · intro sound
    have there : relative ∈ (run (.upsert addressed :: .upsert relative ::
        List.replicate 255 (.upsert anonymous))).placements := by decide +kernel
    have unheld : ∀ e ∈ (run (.upsert addressed :: .upsert relative ::
        List.replicate 255 (.upsert anonymous))).placements, e.key ≠ (1, 1) := by decide +kernel
    obtain ⟨e, member, same⟩ := sound.closed relative there (1, 1) rfl
    exact unheld e member same

end PlacementStore

end Bitty.Term
