import Bitty.Library.Text

/-! What is read from lines that assign a value to a key: blanks around a text, quotes, and separators. -/

namespace Text

def stripSuffix (ending text : Text) : Option Text := (stripPrefix ending.reverse text.reverse).map List.reverse

@[simp] theorem stripSuffix_append (ending text : Text) : stripSuffix ending (text ++ ending) = some text := by
  rw [stripSuffix, List.reverse_append, stripPrefix_append, Option.map_some, List.reverse_reverse]

variable {text : Text}

theorem eq_append_of_stripSuffix {ending rest : Text} (stripped : stripSuffix ending text = some rest) :
    text = rest ++ ending := by
  obtain ⟨left, found, rfl⟩ := Option.map_eq_some_iff.mp stripped
  have same := congrArg List.reverse (eq_append_of_stripPrefix found)
  simpa using same

structure Solid (text : Text) : Prop where
  first : ∃ c, text.head? = some c ∧ isWhitespace c = false
  last : ∃ c, text.getLast? = some c ∧ isWhitespace c = false

theorem Solid.ne_nil (solid : Solid text) : text ≠ [] := by
  rintro rfl
  obtain ⟨c, none, -⟩ := solid.first
  cases none

variable {a b : Text}

theorem Solid.append (first : Solid a) (between : Text) (second : Solid b) : Solid (a ++ between ++ b) := by
  obtain ⟨c, start, dark⟩ := first.first
  obtain ⟨d, stop, dark'⟩ := second.last
  refine ⟨⟨c, ?_, dark⟩, ⟨d, ?_, dark'⟩⟩
  · obtain ⟨rest, rfl⟩ := List.head?_eq_some_iff.mp start
    rfl
  · rw [List.getLast?_append, stop]
    rfl

theorem dropWhile_of_head {c : Char} (start : text.head? = some c) (dark : isWhitespace c = false) :
    text.dropWhile isWhitespace = text := by
  obtain ⟨rest, rfl⟩ := List.head?_eq_some_iff.mp start
  exact List.dropWhile_cons_of_neg (by simp [dark])

theorem Solid.trim_eq (solid : Solid text) : trim text = text := by
  obtain ⟨c, start, dark⟩ := solid.first
  obtain ⟨d, stop, dark'⟩ := solid.last
  have back : text.reverse.head? = some d := by rw [List.head?_reverse, stop]
  rw [trim, dropWhile_of_head start dark, dropWhile_of_head back dark', List.reverse_reverse]

/-! White space around a text. -/

def Blank (text : Text) : Prop := ∀ c ∈ text, isWhitespace c = true

instance (text : Text) : Decidable (Blank text) := inferInstanceAs (Decidable (∀ c ∈ text, isWhitespace c = true))

theorem Blank.nil : Blank [] := nofun

theorem Blank.append (first : Blank a) (second : Blank b) : Blank (a ++ b) := by
  intro c member
  rcases List.mem_append.mp member with left | right
  · exact first c left
  · exact second c right

theorem Blank.dropWhile (blank : Blank a) : a.dropWhile isWhitespace = [] := List.dropWhile_eq_nil_iff.mpr blank

theorem Blank.reverse (blank : Blank a) : Blank a.reverse := fun c member => blank c (List.mem_reverse.mp member)

def Padded (inner outer : Text) : Prop := ∃ l r, Blank l ∧ Blank r ∧ outer = l ++ inner ++ r

theorem Padded.refl (text : Text) : Padded text text := ⟨[], [], .nil, .nil, by simp⟩

theorem Padded.trans {c : Text} (first : Padded a b) (second : Padded b c) : Padded a c := by
  obtain ⟨l, r, blankL, blankR, rfl⟩ := first
  obtain ⟨l', r', blankL', blankR', rfl⟩ := second
  exact ⟨l' ++ l, r ++ r', blankL'.append blankL, blankR.append blankR', by simp⟩

theorem trim_append_left {l : Text} (blank : Blank l) (text : Text) : trim (l ++ text) = trim text := by
  unfold trim
  rw [List.dropWhile_append_of_pos blank]

variable {r : Text}

theorem trim_append_right (blank : Blank r) (text : Text) : trim (text ++ r) = trim text := by
  unfold trim
  rw [List.dropWhile_append]
  split_ifs with empty
  · rw [blank.dropWhile, List.isEmpty_iff.mp empty]
  · rw [List.reverse_append, List.dropWhile_append_of_pos blank.reverse]

variable {inner outer : Text}

theorem Padded.trim_eq (padded : Padded inner outer) : trim outer = trim inner := by
  obtain ⟨l, r, blankL, blankR, rfl⟩ := padded
  rw [trim_append_right blankR, trim_append_left blankL]

theorem padded_trim (text : Text) : Padded (trim text) text := by
  refine ⟨text.takeWhile isWhitespace, ((text.dropWhile isWhitespace).reverse.takeWhile isWhitespace).reverse, ?_, ?_, ?_⟩
  · intro c member
    exact List.mem_takeWhile_imp member
  · intro c member
    exact List.mem_takeWhile_imp (List.mem_reverse.mp member)
  · rw [trim, List.append_assoc, ← List.reverse_append, List.takeWhile_append_dropWhile, List.reverse_reverse,
      List.takeWhile_append_dropWhile]

@[simp] theorem trim_trim (text : Text) : trim (trim text) = trim text := (padded_trim text).trim_eq.symm

theorem solid_of_dark (nonempty : text ≠ []) (dark : ∀ c ∈ text, isWhitespace c = false) : Solid text where
  first := ⟨text.head nonempty, List.head?_eq_some_head nonempty, dark _ (List.head_mem nonempty)⟩
  last := ⟨text.getLast nonempty, List.getLast?_eq_some_getLast nonempty, dark _ (List.getLast_mem nonempty)⟩

theorem Solid.padded_iff (solid : Solid inner) : Padded inner outer ↔ trim outer = inner := by
  constructor
  · exact fun padded => padded.trim_eq.trans solid.trim_eq
  · rintro rfl
    exact padded_trim outer

theorem head_trim (text : Text) : (trim text).head? = (text.dropWhile isWhitespace).head? := by
  unfold trim
  cases rest : text.dropWhile isWhitespace with
  | nil => rfl
  | cons c tail =>
    have dark : isWhitespace c = false := by
      have first := List.head?_dropWhile_not isWhitespace text
      rw [rest] at first
      simpa using first
    rw [List.reverse_cons, List.dropWhile_append]
    split_ifs with empty
    · rw [List.dropWhile_cons_of_neg (by simp [dark])]
      rfl
    · rw [List.reverse_append]
      rfl

variable {sep : Char}

theorem splitOn_append_right (dark : isWhitespace sep = false) (blank : Blank r) (text : Text) :
    List.Forall₂ (fun a b => ∃ r, Blank r ∧ b = a ++ r) (text.splitOn sep) ((text ++ r).splitOn sep) := by
  induction text with
  | nil =>
    have absent : sep ∉ r := fun member => by
      rw [blank sep member] at dark
      cases dark
    rw [List.nil_append, List.splitOn_eq_singleton absent, List.splitOn_nil]
    exact .cons ⟨r, blank, rfl⟩ .nil
  | cons c rest ih =>
    rw [List.cons_append, List.splitOn_cons_eq_if_modifyHead, List.splitOn_cons_eq_if_modifyHead]
    split_ifs with same
    · exact .cons ⟨[], .nil, rfl⟩ ih
    · generalize rest.splitOn sep = before at ih ⊢
      generalize (rest ++ r).splitOn sep = after at ih ⊢
      cases ih with
      | nil => exact .nil
      | cons head tail =>
        obtain ⟨r', blank', rfl⟩ := head
        exact .cons ⟨r', blank', rfl⟩ tail

theorem map_trim_splitOn_append_right (dark : isWhitespace sep = false) (blank : Blank r)
    (text : Text) : ((text ++ r).splitOn sep).map trim = (text.splitOn sep).map trim := by
  have pieces := splitOn_append_right dark blank text
  refine (List.forall₂_eq_eq_eq ▸ List.forall₂_map_left_iff.mpr (List.forall₂_map_right_iff.mpr (pieces.imp ?_)) :
    (text.splitOn sep).map trim = _).symm
  rintro a b ⟨r', blank', rfl⟩
  exact (trim_append_right blank' a).symm

theorem map_trim_splitOn_append_left (dark : isWhitespace sep = false) {l : Text} (blank : Blank l)
    (text : Text) : ((l ++ text).splitOn sep).map trim = (text.splitOn sep).map trim := by
  induction l with
  | nil => rfl
  | cons c rest ih =>
    have white : isWhitespace c = true := blank c List.mem_cons_self
    have other : c ≠ sep := by
      rintro rfl
      rw [dark] at white
      cases white
    rw [List.cons_append, List.splitOn_cons_eq_if_modifyHead, if_neg (by simpa using other),
      ← ih fun d member => blank d (List.mem_cons_of_mem _ member)]
    cases (rest ++ text).splitOn sep with
    | nil => rfl
    | cons piece pieces =>
      have same : trim (c :: piece) = trim piece :=
        trim_append_left (l := [c]) (by rintro d inside; rwa [List.mem_singleton.mp inside]) piece
      simp [same]

theorem map_trim_splitOn_trim (dark : isWhitespace sep = false) (text : Text) :
    ((trim text).splitOn sep).map trim = (text.splitOn sep).map trim := by
  obtain ⟨l, r, blankL, blankR, whole⟩ := padded_trim text
  conv_rhs => rw [whole]
  rw [map_trim_splitOn_append_right dark blankR, map_trim_splitOn_append_left dark blankL]

def squeeze (text : Text) : Text := text.filter fun c => !isWhitespace c

theorem Blank.squeeze (blank : Blank text) : squeeze text = [] := by
  rw [Text.squeeze, List.filter_eq_nil_iff]
  intro c member
  simp [blank c member]

theorem squeeze_of_dark (dark : ∀ c ∈ text, isWhitespace c = false) : squeeze text = text := by
  rw [squeeze, List.filter_eq_self]
  intro c member
  rw [dark c member]
  rfl

@[simp] theorem squeeze_append (a b : Text) : squeeze (a ++ b) = squeeze a ++ squeeze b := List.filter_append a b

theorem Padded.squeeze_eq (padded : Padded inner outer) : squeeze outer = squeeze inner := by
  obtain ⟨l, r, blankL, blankR, rfl⟩ := padded
  rw [squeeze_append, squeeze_append, blankL.squeeze, blankR.squeeze, List.nil_append, List.append_nil]

theorem byteLen_squeeze_le (text : Text) : byteLen (squeeze text) ≤ byteLen text := by
  induction text with
  | nil => exact Nat.le_refl _
  | cons c rest ih =>
    unfold squeeze at ih ⊢
    rw [List.filter_cons, byteLen_cons]
    split_ifs
    · rw [byteLen_cons]
      omega
    · omega

theorem splitOn_squeeze (dark : isWhitespace sep = false) (text : Text) :
    (squeeze text).splitOn sep = (text.splitOn sep).map squeeze := by
  induction text with
  | nil => rfl
  | cons c rest ih =>
    unfold squeeze at ih ⊢
    rw [List.filter_cons, List.splitOn_cons_eq_if_modifyHead c rest]
    by_cases same : c = sep
    · subst same
      rw [if_pos (by simp [dark]), List.splitOn_cons_eq_if_modifyHead, if_pos (by simp), if_pos (by simp), ih]
      rfl
    · have other : ¬(c == sep) = true := by simpa using same
      rw [if_neg other]
      cases split : rest.splitOn sep with
      | nil => exact absurd split (List.splitOn_ne_nil _ _)
      | cons piece pieces =>
        rw [split] at ih
        by_cases stays : isWhitespace c = true
        · rw [if_neg (by simp [stays]), ih]
          simp [stays]
        · rw [if_pos (by simp [stays]), List.splitOn_cons_eq_if_modifyHead, if_neg other, ih]
          simp [stays]

theorem Solid.trim_before (solid : Solid text) : trim (' ' :: text) = text := by
  have space : Blank [' '] := by decide
  exact (trim_append_left space text).trans solid.trim_eq

theorem Solid.trim_after (solid : Solid text) : trim (text ++ [' ']) = text := by
  have space : Blank [' '] := by decide
  exact (trim_append_right space text).trans solid.trim_eq

/-! Separators. -/

theorem splitOnce_append (b : Text) (none : sep ∉ a) : splitOnce sep (a ++ sep :: b) = some (a, b) := by
  have before : ∀ c ∈ a, decide (c ≠ sep) = true := fun c member => by
    have other : c ≠ sep := fun same => none (same ▸ member)
    simpa using other
  have stop : decide (sep ≠ sep) = false := by simp
  rw [splitOnce, if_pos (by simp), List.takeWhile_append_of_pos before, List.dropWhile_append_of_pos before,
    List.takeWhile_cons_of_neg (by simp), List.dropWhile_cons_of_neg (by simp), List.append_nil, List.drop_succ_cons, List.drop_zero]

end Text
