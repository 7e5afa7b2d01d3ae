import Bitty.Library.Text

/-! Texts that differ in the case of ASCII letters. -/

namespace Text

def lower (s : Text) : Text := s.map Char.toLower

theorem toLower_cases (c : Char) : c.toLower = c ∨ 65 ≤ c.toNat ∧ c.toNat ≤ 90 ∧ c.toLower.toNat = c.toNat + 32 := by
  unfold Char.toLower
  split
  next upper =>
    have low : 65 ≤ c.toNat := UInt32.le_iff_toNat_le.mp upper.1
    have high : c.toNat ≤ 90 := UInt32.le_iff_toNat_le.mp upper.2
    refine .inr ⟨low, high, ?_⟩
    have sum : (c.val + ('a'.val - 'A'.val)).toNat = c.val.toNat + 32 := by
      rw [UInt32.toNat_add]
      exact Nat.mod_eq_of_lt (Nat.lt_of_le_of_lt (Nat.add_le_add_right high 32) (by decide))
    exact sum
  next => exact .inl rfl

theorem isAlpha_iff (c : Char) : c.isAlpha = true ↔ 65 ≤ c.toNat ∧ c.toNat ≤ 90 ∨ 97 ≤ c.toNat ∧ c.toNat ≤ 122 := by
  simp [Char.isAlpha, Char.isUpper, Char.isLower, UInt32.le_iff_toNat_le]

theorem toLower_eq_iff {c d : Char} (other : d.isAlpha = false) : c.toLower = d ↔ c = d := by
  rcases toLower_cases c with same | ⟨low, high, same⟩
  · rw [same]
  · have letter : c.isAlpha = true := (isAlpha_iff c).mpr (.inl ⟨low, high⟩)
    have lowered : c.toLower.isAlpha = true := (isAlpha_iff _).mpr (.inr (by omega))
    refine iff_of_false ?_ ?_
    · rintro rfl
      rw [lowered] at other
      cases other
    · rintro rfl
      rw [letter] at other
      cases other

theorem toLower_toLower (c : Char) : c.toLower.toLower = c.toLower := by
  rcases toLower_cases c with same | ⟨low, high, same⟩
  · rw [same, same]
  · rcases toLower_cases c.toLower with again | ⟨-, above, -⟩
    · exact again
    · omega

theorem isControl_toLower (c : Char) : isControl c.toLower = isControl c := by
  rcases toLower_cases c with same | ⟨low, high, same⟩
  · rw [same]
  · simp only [isControl, same, decide_eq_decide]
    omega

theorem isDigit_toLower (c : Char) : c.toLower.isDigit = c.isDigit := by
  rcases toLower_cases c with same | ⟨low, high, same⟩
  · rw [same]
  · have digit (d : Char) : d.isDigit = decide (48 ≤ d.toNat ∧ d.toNat ≤ 57) := by
      simp [Char.isDigit, UInt32.le_iff_toNat_le]
    rw [digit, digit, same, decide_eq_decide]
    omega

theorem utf8Size_toLower (c : Char) : c.toLower.utf8Size = c.utf8Size := by
  rcases toLower_cases c with same | ⟨low, high, same⟩
  · rw [same]
  · have small (d : Char) (ascii : d.toNat ≤ 127) : d.utf8Size = 1 := by
      have le : d.val ≤ 127 := UInt32.le_iff_toNat_le.mpr ascii
      exact if_pos le
    rw [small c (by omega), small c.toLower (by omega)]

theorem lower_cons (c : Char) (s : Text) : lower (c :: s) = c.toLower :: lower s := rfl

theorem lower_eq_nil {s : Text} : lower s = [] ↔ s = [] := List.map_eq_nil_iff

theorem lower_lower (s : Text) : lower (lower s) = lower s := by
  rw [lower, lower, List.map_map]
  exact List.map_congr_left fun c _ => toLower_toLower c

@[simp] theorem byteLen_lower (s : Text) : byteLen (lower s) = byteLen s := by
  induction s with
  | nil => rfl
  | cons c rest ih => rw [lower_cons, byteLen_cons, byteLen_cons, utf8Size_toLower, ih]

theorem any_isControl_lower (s : Text) : (lower s).any isControl = s.any isControl := by
  rw [lower, List.any_map]
  exact congrArg (s.any ·) (funext isControl_toLower)

theorem lower_eq_iff {s t : Text} (plain : ∀ c ∈ t, c.isAlpha = false) : lower s = t ↔ s = t := by
  induction s generalizing t with
  | nil => exact Iff.rfl
  | cons c rest ih =>
    cases t with
    | nil => exact iff_of_false (List.cons_ne_nil _ _) (List.cons_ne_nil _ _)
    | cons d others =>
      rw [lower_cons, List.cons.injEq, List.cons.injEq, toLower_eq_iff (plain d List.mem_cons_self),
        ih fun e member => plain e (List.mem_cons_of_mem _ member)]

end Text

/-! Matching of a pattern with stars, greedily and with one point to come back to. -/

namespace Glob

variable {α β γ : Type}

inductive Verdict
  | accept
  | star
  | consume (symbols : Nat)
  | refuse

def reach (items : List β) (resume : Option (List α × List β)) : Nat :=
  match items with
  | [] => 0
  | _ :: rest => max (rest.length + 1) (resume.elim 0 fun r => r.2.length + 1)

/-- Whether a pattern matches the items. `resume` holds the pattern after the last star and the items after those that the
star has taken so far. -/
def greedy (isStar : α → Bool) (front : List α → β → Verdict) (pattern : List α) (items : List β)
    (resume : Option (List α × List β)) : Bool :=
  match items with
  | [] => pattern.all isStar
  | item :: rest =>
    match front pattern item with
    | .accept => true
    | .star =>
      match pattern with
      | [] => false
      | _ :: after => greedy isStar front after (item :: rest) (some (after, rest))
    | .consume symbols => greedy isStar front (pattern.drop symbols) rest resume
    | .refuse =>
      match resume with
      | none => false
      | some (after, mark) => greedy isStar front after mark (some (after, mark.tail))
termination_by (reach items resume, pattern.length + items.length)
decreasing_by
  · rw [Prod.lex_def]
    simp only [reach, Option.elim, List.length_cons]
    omega
  · rw [Prod.lex_def]
    cases rest with
    | nil =>
      simp only [reach, List.length_cons, List.length_nil]
      omega
    | cons next others =>
      simp only [reach, List.length_cons, List.length_drop]
      omega
  · rw [Prod.lex_def]
    cases mark with
    | nil =>
      simp only [reach]
      omega
    | cons next others =>
      simp only [reach, Option.elim, List.length_cons, List.tail_cons]
      omega

theorem greedy_cons (isStar : α → Bool) (front : List α → β → Verdict) (pattern : List α) (item : β) (rest : List β)
    (resume : Option (List α × List β)) : greedy isStar front pattern (item :: rest) resume =
      match front pattern item with
      | .accept => true
      | .star =>
        match pattern with
        | [] => false
        | _ :: after => greedy isStar front after (item :: rest) (some (after, rest))
      | .consume symbols => greedy isStar front (pattern.drop symbols) rest resume
      | .refuse =>
        match resume with
        | none => false
        | some (after, mark) => greedy isStar front after mark (some (after, mark.tail)) := by
  rw [greedy.eq_def]

theorem greedy_map {isStar : α → Bool} {front : List α → β → Verdict} {front' : List α → γ → Verdict} (f : β → γ)
    (same : ∀ pattern item, front' pattern (f item) = front pattern item) (pattern : List α) (items : List β)
    (resume : Option (List α × List β)) :
    greedy isStar front' pattern (items.map f) (resume.map fun r => (r.1, r.2.map f)) =
      greedy isStar front pattern items resume := by
  fun_induction greedy isStar front pattern items resume with
  | case1 => simp [greedy]
  | case2 pattern resume item rest verdict => rw [List.map_cons, greedy_cons, same, verdict]
  | case3 resume item rest verdict => rw [List.map_cons, greedy_cons, same, verdict]
  | case4 resume item rest symbol after verdict ih =>
    rw [List.map_cons, greedy_cons, same, verdict]
    exact ih
  | case5 pattern resume item rest symbols verdict ih =>
    rw [List.map_cons, greedy_cons, same, verdict]
    exact ih
  | case6 pattern item rest verdict =>
    rw [List.map_cons, greedy_cons, same, verdict]
    rfl
  | case7 pattern item rest verdict after mark ih =>
    rw [List.map_cons, greedy_cons, same, verdict, ← ih]
    simp

variable {σ : Type} {wild : σ → Prop} {accepts : σ → β → Prop} {held : β → Prop}

/-- That symbols match items. A wild symbol takes a run of items, but just the one it stands at if that is held. -/
inductive Matches (wild : σ → Prop) (accepts : σ → β → Prop) (held : β → Prop) : List σ → List β → Prop
  | nil : Matches wild accepts held [] []
  | run {symbol symbols} (taken : List β) {items} : wild symbol → (∀ b ∈ (taken ++ items).head?, ¬held b) →
      Matches wild accepts held symbols items → Matches wild accepts held (symbol :: symbols) (taken ++ items)
  | one {symbol symbols b items} : wild symbol → held b → Matches wild accepts held symbols items →
      Matches wild accepts held (symbol :: symbols) (b :: items)
  | item {symbol symbols b items} : ¬wild symbol → accepts symbol b → Matches wild accepts held symbols items →
      Matches wild accepts held (symbol :: symbols) (b :: items)

/-- That a symbol can take just this one item. -/
def Takes (wild : σ → Prop) (accepts : σ → β → Prop) (held : β → Prop) (symbol : σ) (b : β) : Prop :=
  wild symbol ∧ held b ∨ ¬wild symbol ∧ accepts symbol b

namespace Matches

variable {items : List β}

theorem mono {accepts' : σ → β → Prop} (wider : ∀ symbol b, accepts symbol b → accepts' symbol b) {symbols : List σ}
    (found : Matches wild accepts held symbols items) :
    Matches wild accepts' (fun _ => False) symbols items := by
  induction found with
  | nil => exact .nil
  | run taken star _ _ ih => exact .run taken star (fun _ _ => id) ih
  | @one _ _ b _ star _ _ ih => exact .run [b] star (fun _ _ => id) ih
  | item plain accepted _ ih => exact .item plain (wider _ _ accepted) ih

theorem nil_iff {symbols : List σ} : Matches wild accepts held symbols [] ↔ ∀ symbol ∈ symbols, wild symbol := by
  induction symbols with
  | nil => exact iff_of_true .nil (by simp)
  | cons symbol symbols ih =>
    rw [List.forall_mem_cons, ← ih]
    constructor
    · intro found
      generalize none : ([] : List β) = items at found
      cases found with
      | run taken star _ rest =>
        obtain ⟨rfl, rfl⟩ := List.append_eq_nil_iff.mp none.symm
        exact ⟨star, rest⟩
      | one => cases none
      | item => cases none
    · rintro ⟨star, rest⟩
      exact .run [] star (by simp) rest

variable {symbol : σ}

theorem rest_of_cons {symbols : List σ} (found : Matches wild accepts held (symbol :: symbols) items) :
    ∃ rest, rest <:+ items ∧ Matches wild accepts held symbols rest := by
  cases found with
  | @run _ _ taken rest _ _ later => exact ⟨rest, List.suffix_append _ _, later⟩
  | one _ _ later => exact ⟨_, List.suffix_cons _ _, later⟩
  | item _ _ later => exact ⟨_, List.suffix_cons _ _, later⟩

variable {b : β}

theorem star_iff {symbols : List σ} (star : wild symbol) (free : ¬held b) :
    Matches wild accepts held (symbol :: symbols) (b :: items) ↔
      ∃ rest, rest <:+ b :: items ∧ Matches wild accepts held symbols rest := by
  refine ⟨rest_of_cons, ?_⟩
  rintro ⟨rest, ⟨taken, split⟩, later⟩
  rw [← split]
  refine .run taken star (fun c first => ?_) later
  rw [split, List.head?_cons, Option.mem_some_iff] at first
  exact first ▸ free

theorem takes_iff {symbols : List σ} (takes : Takes wild accepts held symbol b) :
    Matches wild accepts held (symbol :: symbols) (b :: items) ↔ Matches wild accepts held symbols items := by
  constructor
  · intro found
    generalize whole : b :: items = all at found
    cases found with
    | run taken star free _ =>
      rw [← whole] at free
      rcases takes with ⟨-, kept⟩ | ⟨plain, -⟩
      · exact absurd kept (free b rfl)
      · exact absurd star plain
    | one _ _ later => exact (List.cons.inj whole).2 ▸ later
    | item _ _ later => exact (List.cons.inj whole).2 ▸ later
  · intro later
    rcases takes with ⟨star, kept⟩ | ⟨plain, accepted⟩
    · exact .one star kept later
    · exact .item plain accepted later

theorem left_behind {passed : List σ} {taken : List β} (each : List.Forall₂ (Takes wild accepts held) passed taken)
    {symbols : List σ} {start : List β} (within : start <:+ taken ++ items)
    (found : Matches wild accepts held (passed ++ symbols) start) :
    ∃ rest, rest <:+ items ∧ Matches wild accepts held symbols rest := by
  induction each generalizing start with
  | nil => exact ⟨start, within, found⟩
  | @cons symbol b passed taken takes _ ih =>
    rcases List.suffix_cons_iff.mp within with rfl | within
    · exact ih List.suffix_rfl ((takes_iff takes).mp found)
    · obtain ⟨next, suffix, later⟩ := rest_of_cons found
      exact ih (suffix.trans within) later

theorem of_refused {symbols : List σ}
    (refused : ∀ symbol ∈ symbols.head?, ¬wild symbol ∧ ¬accepts symbol b) : ¬Matches wild accepts held symbols (b :: items) := by
  intro found
  generalize whole : b :: items = all at found
  cases found with
  | nil => cases whole
  | run _ star => exact (refused _ rfl).1 star
  | one star => exact (refused _ rfl).1 star
  | item _ accepted =>
    cases whole
    exact (refused _ rfl).2 accepted

end Matches

structure Reads (isStar : α → Bool) (front : List α → β → Verdict) (symbols : List α → List σ) (wild : σ → Prop)
    (accepts : σ → β → Prop) (held : β → Prop) : Prop where
  ended : ∀ pattern, pattern.all isStar = true ↔ ∀ symbol ∈ symbols pattern, wild symbol
  accept : ∀ {pattern b}, front pattern b = .accept → ∃ symbol, symbols pattern = [symbol] ∧ wild symbol ∧ ¬held b
  star : ∀ {pattern b}, front pattern b = .star →
    ∃ a after symbol, pattern = a :: after ∧ symbols pattern = symbol :: symbols after ∧ wild symbol ∧ ¬held b
  consume : ∀ {pattern b count}, front pattern b = .consume count →
    ∃ symbol, symbols pattern = symbol :: symbols (pattern.drop count) ∧ Takes wild accepts held symbol b
  refuse : ∀ {pattern b}, front pattern b = .refuse → ∀ symbol ∈ (symbols pattern).head?, ¬wild symbol ∧ ¬accepts symbol b

/-- What is to come back to: since the last star each symbol took one item, and the star has not got past these. -/
def Resumable (symbols : List α → List σ) (wild : σ → Prop) (accepts : σ → β → Prop) (held : β → Prop) (pattern : List α)
    (items : List β) (resume : Option (List α × List β)) : Prop :=
  ∀ r ∈ resume, ∃ passed taken, symbols r.1 = passed ++ symbols pattern ∧ List.Forall₂ (Takes wild accepts held) passed taken ∧
    r.2 <:+ taken ++ items

/-- A match from a place that the last star has still to reach. -/
def Later (symbols : List α → List σ) (wild : σ → Prop) (accepts : σ → β → Prop) (held : β → Prop)
    (resume : Option (List α × List β)) : Prop :=
  ∃ r ∈ resume, ∃ start, start <:+ r.2 ∧ Matches wild accepts held (symbols r.1) start

variable {symbols : List α → List σ}

theorem Later.left_behind {pattern : List α} {items : List β} {resume : Option (List α × List β)}
    (later : Later symbols wild accepts held resume) (resumable : Resumable symbols wild accepts held pattern items resume) :
    ∃ rest, rest <:+ items ∧ Matches wild accepts held (symbols pattern) rest := by
  obtain ⟨r, here, start, suffix, found⟩ := later
  obtain ⟨passed, taken, split, each, within⟩ := resumable r here
  rw [split] at found
  exact found.left_behind each (suffix.trans within)

theorem later_cons {after : List α} {b : β} {mark : List β} :
    (∃ rest, rest <:+ b :: mark ∧ Matches wild accepts held (symbols after) rest) ↔
      Matches wild accepts held (symbols after) (b :: mark) ∨ Later symbols wild accepts held (some (after, mark)) := by
  simp [Later, List.suffix_cons_iff, or_and_right, exists_or]

/-- The greedy matching finds a match if there is one, from where it stands or from where the last star has still to reach. -/
theorem greedy_iff {isStar : α → Bool} {front : List α → β → Verdict} (reads : Reads isStar front symbols wild accepts held)
    {pattern : List α} {items : List β} {resume : Option (List α × List β)}
    (resumable : Resumable symbols wild accepts held pattern items resume) :
    greedy isStar front pattern items resume = true ↔
      Matches wild accepts held (symbols pattern) items ∨ Later symbols wild accepts held resume := by
  fun_induction greedy isStar front pattern items resume with
  | case1 pattern resume =>
    have ended : Matches wild accepts held (symbols pattern) [] ↔ ∀ symbol ∈ symbols pattern, wild symbol := Matches.nil_iff
    rw [reads.ended, ← ended]
    refine ⟨.inl, ?_⟩
    rintro (found | later)
    · exact found
    · obtain ⟨rest, suffix, found⟩ := later.left_behind resumable
      exact List.suffix_nil.mp suffix ▸ found
  | case2 pattern resume item rest verdict =>
    obtain ⟨symbol, alone, star, free⟩ := reads.accept verdict
    refine iff_of_true rfl (.inl ?_)
    rw [alone, Matches.star_iff star free]
    exact ⟨[], List.nil_suffix, .nil⟩
  | case3 resume item rest verdict =>
    obtain ⟨a, after, symbol, split, -⟩ := reads.star verdict
    cases split
  | case4 resume item rest a after verdict ih =>
    obtain ⟨b, _, symbol, split, parsed, star, free⟩ := reads.star verdict
    cases split
    have fresh : Resumable symbols wild accepts held after (item :: rest) (some (after, rest)) := by
      rintro r ⟨⟩
      exact ⟨[], [], rfl, .nil, List.suffix_cons _ _⟩
    rw [ih fresh, parsed, Matches.star_iff star free, ← later_cons]
    refine ⟨.inl, ?_⟩
    rintro (found | later)
    · exact found
    · obtain ⟨start, suffix, found⟩ := later.left_behind resumable
      rw [parsed] at found
      obtain ⟨last, inner, found⟩ := found.rest_of_cons
      exact ⟨last, inner.trans suffix, found⟩
  | case5 pattern resume item rest count verdict ih =>
    obtain ⟨symbol, parsed, takes⟩ := reads.consume verdict
    rw [parsed, Matches.takes_iff takes]
    refine ih fun r here => ?_
    obtain ⟨passed, taken, split, each, within⟩ := resumable r here
    refine ⟨passed ++ [symbol], taken ++ [item], ?_, ?_, ?_⟩
    · rw [split, parsed, List.append_assoc]
      rfl
    · exact List.rel_append each (.cons takes .nil)
    · rwa [List.append_assoc]
  | case6 pattern item rest verdict =>
    refine iff_of_false Bool.false_ne_true ?_
    rintro (found | ⟨_, ⟨⟩, _⟩)
    exact Matches.of_refused (reads.refuse verdict) found
  | case7 pattern item rest verdict after mark ih =>
    have again : Resumable symbols wild accepts held after mark (some (after, mark.tail)) := by
      rintro r ⟨⟩
      exact ⟨[], [], rfl, .nil, List.tail_suffix _⟩
    have none : ¬Matches wild accepts held (symbols pattern) (item :: rest) := Matches.of_refused (reads.refuse verdict)
    rw [ih again, or_iff_right none]
    cases mark with
    | nil => simp [Later, List.suffix_nil]
    | cons b mark =>
      rw [List.tail_cons, ← later_cons]
      simp [Later]

end Glob

/-! Finite sets of things that are told apart by a text, read in the order of the texts. -/

namespace TextSet

variable {α : Type} {key : α → Text}

def Below (key : α → Text) (a b : α) : Prop := Text.le (key a) (key b) = true

instance : DecidableRel (Below key) := fun a b => inferInstanceAs (Decidable (Text.le (key a) (key b) = true))

instance : IsTrans α (Below key) := ⟨fun a b c => Text.le_trans (key a) (key b) (key c)⟩

instance : Std.Total (Below key) := ⟨fun a b => Text.le_total (key a) (key b)⟩

theorem antisymm_below (apart : Function.Injective key) : Std.Antisymm (Below key) :=
  ⟨fun _ _ first second => apart (Text.le_antisymm first second)⟩

def inOrder (key : α → Text) (apart : Function.Injective key) (s : Finset α) : List α :=
  have := antisymm_below apart
  s.sort (Below key)

variable {apart : Function.Injective key} {s : Finset α} {a : α}

@[simp] theorem mem_inOrder : a ∈ inOrder key apart s ↔ a ∈ s := by
  have := antisymm_below apart
  exact Finset.mem_sort _

theorem inOrder_eq_nil : inOrder key apart s = [] ↔ s = ∅ := by
  rw [List.eq_nil_iff_forall_not_mem, Finset.eq_empty_iff_forall_notMem]
  exact forall_congr' fun a => not_congr mem_inOrder

theorem nodup_inOrder : (inOrder key apart s).Nodup := by
  have := antisymm_below apart
  exact Finset.sort_nodup _ _

end TextSet
