import Bitty.Library.Text
import Bitty.Library.Mutation

/-! Reading things off the front of a text, one alone or several between separators. -/

abbrev Reader (ε α : Type) := Text → Except ε (α × Text)

namespace Reader

variable {ε α β : Type}

def Takes (read : Reader ε α) : Prop := ∀ text a rest, read text = .ok (a, rest) → rest.length < text.length

/-- Things between separators, up to a closing character; the bound is on the separators. -/
def separated (read : Reader ε α) (blank : Text → Text) (sep close : Char) (unexpected : ε) : Nat → Reader ε (List α)
  | bound, text =>
    match read text with
    | .error e => .error e
    | .ok (a, rest) =>
      match blank rest with
      | [] => .error unexpected
      | c :: rest =>
        if c = close then .ok ([a], rest)
        else if c = sep then
          match bound with
          | 0 => .error unexpected
          | bound + 1 =>
            match separated read blank sep close unexpected bound rest with
            | .error e => .error e
            | .ok (others, rest) => .ok (a :: others, rest)
        else .error unexpected

variable {read : Reader ε α} {blank : Text → Text} {sep close : Char} {unexpected : ε}

variable {bound : Nat} {text : Text} {as : List α}

theorem separated_ok {rest : Text} (run : separated read blank sep close unexpected bound text = .ok (as, rest)) :
    ∃ a behind c after, read text = .ok (a, behind) ∧ blank behind = c :: after ∧
      (rest = after ∨ ∃ n others, bound = n + 1 ∧ separated read blank sep close unexpected n after = .ok (others, rest)) := by
  unfold separated at run
  split at run
  · cases run
  rename_i a behind first
  split at run
  · cases run
  rename_i c after shape
  refine ⟨a, behind, c, after, first, shape, ?_⟩
  split_ifs at run
  · cases run
    exact .inl rfl
  · split at run
    · cases run
    rename_i n
    split at run
    · cases run
    rename_i others last later
    cases run
    exact .inr ⟨n, others, rfl, later⟩

theorem takes_separated (takes : Takes read) (shrinks : ∀ text, (blank text).length ≤ text.length) (bound : Nat) :
    Takes (separated read blank sep close unexpected bound) := by
  induction bound with
  | zero =>
    intro text as rest run
    obtain ⟨a, behind, c, after, first, shape, rfl | ⟨n, others, impossible, -⟩⟩ := separated_ok run
    · have less := takes text a behind first
      have less' := shrinks behind
      rw [shape, List.length_cons] at less'
      omega
    · cases impossible
  | succ bound ih =>
    intro text as rest run
    obtain ⟨a, behind, c, after, first, shape, ending⟩ := separated_ok run
    have less := takes text a behind first
    have less' := shrinks behind
    rw [shape, List.length_cons] at less'
    obtain rfl | ⟨n, others, same, later⟩ := ending
    · omega
    · cases same
      have fewer := ih after others rest later
      omega

theorem separated_enough (takes : Takes read) (shrinks : ∀ text, (blank text).length ≤ text.length) {more : Nat}
    (enough : text.length ≤ bound) (le : bound ≤ more) :
    separated read blank sep close unexpected more text = separated read blank sep close unexpected bound text := by
  induction bound generalizing more text with
  | zero =>
    have none : text = [] := List.eq_nil_of_length_eq_zero (Nat.le_zero.mp enough)
    subst none
    unfold separated
    cases first : read [] with
    | error e => rfl
    | ok found =>
      obtain ⟨a, rest⟩ := found
      exact absurd (takes [] a rest first) (Nat.not_lt_zero _)
  | succ bound ih =>
    obtain ⟨more, rfl⟩ : ∃ n, more = n + 1 := ⟨more - 1, by omega⟩
    unfold separated
    cases first : read text with
    | error e => rfl
    | ok found =>
      obtain ⟨a, rest⟩ := found
      have less := takes text a rest first
      have less' := shrinks rest
      dsimp only
      cases shape : blank rest with
      | nil => rfl
      | cons c behind =>
        rw [shape, List.length_cons] at less'
        dsimp only
        rw [ih (by omega : behind.length ≤ bound) (by omega)]

theorem separated_reads {write : β → Text} {value : β → α} {bs : List β} (apart : sep ≠ close)
    (keepsSep : ∀ text, blank (sep :: text) = sep :: text) (keepsClose : ∀ text, blank (close :: text) = close :: text)
    (reads : ∀ b ∈ bs, ∀ c, c = sep ∨ c = close → ∀ rest, read (write b ++ c :: rest) = .ok (value b, c :: rest))
    (some : bs ≠ []) (enough : bs.length ≤ bound + 1) (rest : Text) :
    separated read blank sep close unexpected bound (List.intercalate [sep] (bs.map write) ++ close :: rest) =
      .ok (bs.map value, rest) := by
  induction bs generalizing bound with
  | nil => exact absurd rfl some
  | cons b others ih =>
    cases others with
    | nil =>
      have single : List.intercalate [sep] ([b].map write) = write b := by simp [List.intercalate]
      rw [single]
      unfold separated
      rw [reads b List.mem_cons_self close (.inr rfl) rest]
      dsimp only
      rw [keepsClose]
      dsimp only
      rw [if_pos rfl]
      rfl
    | cons b' others =>
      obtain ⟨bound, rfl⟩ : ∃ n, bound = n + 1 := ⟨bound - 1, by simp only [List.length_cons] at enough; omega⟩
      have several : List.intercalate [sep] ((b :: b' :: others).map write) ++ close :: rest =
          write b ++ sep :: (List.intercalate [sep] ((b' :: others).map write) ++ close :: rest) := by
        simp [List.intercalate]
      have later := ih (fun b member => reads b (List.mem_cons_of_mem _ member)) (List.cons_ne_nil _ _)
        (by simpa using enough : (b' :: others).length ≤ bound + 1)
      rw [several]
      unfold separated
      rw [reads b List.mem_cons_self sep (.inl rfl) _]
      dsimp only
      rw [keepsSep]
      dsimp only
      rw [if_neg apart, if_pos rfl, later]
      rfl

theorem length_le_intercalate (c : Char) (texts : List Text) : texts.length ≤ (List.intercalate [c] texts).length + 1 := by
  induction texts with
  | nil => exact Nat.zero_le _
  | cons t rest ih =>
    cases rest with
    | nil => exact Nat.succ_le_succ (Nat.zero_le _)
    | cons t' rest =>
      have split : List.intercalate [c] (t :: t' :: rest) = t ++ c :: List.intercalate [c] (t' :: rest) := by
        simp [List.intercalate]
      rw [split, List.length_append, List.length_cons, List.length_cons (a := c)]
      omega

/-- The grammar of a list: things between separators, up to a closing character. `item l a r` says that the text `l`
begins with the thing `a` and that `r` stands behind it, and `gap l r` that nothing but blanks stand between the two. -/
inductive Listed (item : Text → α → Text → Prop) (gap : Text → Text → Prop) (sep close : Char) : Text → List α → Text → Prop
  | last {l m r a} (first : item l a m) (closed : gap m (close :: r)) : Listed item gap sep close l [a] r
  | more {l m n r a as} (first : item l a m) (next : gap m (sep :: n)) (others : Listed item gap sep close n as r) :
    Listed item gap sep close l (a :: as) r

variable {item item' : Text → α → Text → Prop} {gap gap' : Text → Text → Prop}

variable {l r : Text}

theorem Listed.ne_nil (listed : Listed item gap sep close l as r) : as ≠ [] := by
  cases listed <;> exact List.cons_ne_nil _ _

theorem Listed.imp (listed : Listed item gap sep close l as r)
    (items : ∀ l a m, item l a m → item' l a m) (gaps : ∀ l m, gap l m → gap' l m) : Listed item' gap' sep close l as r := by
  induction listed with
  | last first closed => exact .last (items _ _ _ first) (gaps _ _ closed)
  | more first next _ ih => exact .more (items _ _ _ first) (gaps _ _ next) ih

theorem Listed.start {l' : Text} (listed : Listed item gap sep close l as r)
    (first : ∀ a m, item l a m → item l' a m) : Listed item gap sep close l' as r := by
  cases listed with
  | last head closed => exact .last (first _ _ head) closed
  | more head next others => exact .more (first _ _ head) next others

theorem Listed.back {P : Text → Prop} (listed : Listed item gap sep close l as r)
    (step : ∀ l a m c n, item l a m → gap m (c :: n) → c = sep ∨ c = close → P n → P l) (ending : P r) : P l := by
  induction listed with
  | last first closed => exact step _ _ _ _ _ first closed (.inr rfl) ending
  | more first next _ ih => exact step _ _ _ _ _ first next (.inl rfl) (ih ending)

theorem Listed.transfer {P : Text → Prop} (listed : Listed item gap sep close l as r)
    (step : ∀ l a m c n, item l a m → gap m (c :: n) → c = sep ∨ c = close → P l → item' l a m ∧ gap' m (c :: n) ∧ P n)
    (start : P l) : Listed item' gap' sep close l as r ∧ P r := by
  induction listed with
  | last first closed =>
    obtain ⟨first, closed, later⟩ := step _ _ _ _ _ first closed (.inr rfl) start
    exact ⟨.last first closed, later⟩
  | more first next _ ih =>
    obtain ⟨first, next, later⟩ := step _ _ _ _ _ first next (.inl rfl) start
    exact ⟨.more first next (ih later).1, (ih later).2⟩

theorem listed_of_separated {rest : Text}
    (items : ∀ l a m, read l = .ok (a, m) → item l a m) (gaps : ∀ l c m, blank l = c :: m → gap l (c :: m))
    (run : separated read blank sep close unexpected bound text = .ok (as, rest)) : Listed item gap sep close text as rest := by
  induction bound generalizing text as with
  | zero =>
    unfold separated at run
    split at run
    next => cases run
    next a behind first =>
      split at run
      next => cases run
      next c after shape =>
        split_ifs at run with closes
        cases run
        exact .last (items _ _ _ first) (closes ▸ gaps _ _ _ shape)
  | succ bound ih =>
    unfold separated at run
    split at run
    next => cases run
    next a behind first =>
      split at run
      next => cases run
      next c after shape =>
        split_ifs at run with closes separates
        · cases run
          exact .last (items _ _ _ first) (closes ▸ gaps _ _ _ shape)
        · dsimp only at run
          split at run
          next => cases run
          next others last later =>
            cases run
            exact .more (items _ _ _ first) (separates ▸ gaps _ _ _ shape) (ih later)

theorem separated_of_listed (apart : sep ≠ close) (listed : Listed item gap sep close l as r)
    (items : ∀ l a m c n, item l a m → gap m (c :: n) → c = sep ∨ c = close → read l = .ok (a, m) ∧ blank m = c :: n)
    (enough : as.length ≤ bound + 1) : separated read blank sep close unexpected bound l = .ok (as, r) := by
  induction listed generalizing bound with
  | last first closed =>
    obtain ⟨first, closed⟩ := items _ _ _ _ _ first closed (.inr rfl)
    unfold separated
    rw [first]
    dsimp only
    rw [closed]
    exact if_pos rfl
  | more first next others ih =>
    obtain ⟨first, next⟩ := items _ _ _ _ _ first next (.inl rfl)
    have some := List.length_pos_of_ne_nil others.ne_nil
    rw [List.length_cons] at enough
    obtain ⟨bound, rfl⟩ : ∃ n, bound = n + 1 := ⟨bound - 1, by omega⟩
    unfold separated
    rw [first]
    dsimp only
    rw [next]
    dsimp only
    rw [if_neg apart, if_pos rfl, ih (by omega)]

end Reader
