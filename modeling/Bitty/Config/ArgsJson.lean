import Bitty.Plugin.Store.Exact

/-! The structural gate in front of the JSON of arguments. -/

namespace Bitty.Config

open Text Checks

def MAX_JSON_ARGS_BYTES : Nat := 65536

def MAX_JSON_ARGS_DEPTH : Nat := 32

/-- The variables of the scan. The text is read by its scalars: every byte that is compared is ASCII. -/
structure ArgsScan where
  depth : Nat := 0
  inString : Bool := false
  escaped : Bool := false
  stack : List Char := []
  rootEnd : Option Nat := none

namespace ArgsScan

def close (scan : ArgsScan) (index : Nat) (c : Char) : Except Text ArgsScan :=
  if scan.stack.head? ≠ some c then .error "args blob has unbalanced brackets".toList
  else
    .ok { scan with
      stack := scan.stack.tail
      depth := scan.depth - 1
      rootEnd := if scan.depth - 1 = 0 ∧ scan.rootEnd.isNone then some (index + 1) else scan.rootEnd }

def outside (scan : ArgsScan) (index : Nat) (c : Char) : Except Text ArgsScan :=
  if c = '"' then .ok { scan with inString := true }
  else if c = '\x7b' then .ok { scan with stack := '\x7d' :: scan.stack, depth := scan.depth + 1 }
  else if c = '[' then .ok { scan with stack := ']' :: scan.stack, depth := scan.depth + 1 }
  else if c = '\x7d' ∨ c = ']' then scan.close index c
  else .ok scan

def tooDeep : Text := "args blob nests too deep (max ".toList ++ number MAX_JSON_ARGS_DEPTH ++ ")".toList

def step (scan : ArgsScan) (index : Nat) (c : Char) : Except Text ArgsScan :=
  if scan.inString then
    if scan.escaped then .ok { scan with escaped := false }
    else if c = '\\' then .ok { scan with escaped := true }
    else if c = '"' then .ok { scan with inString := false }
    else .ok scan
  else do
    let scan ← scan.outside index c
    refuseIf (MAX_JSON_ARGS_DEPTH < scan.depth) tooDeep
    return scan

def run (scan : ArgsScan) (index : Nat) : Text → Except Text ArgsScan
  | [] => .ok scan
  | c :: rest => do
    let scan ← scan.step index c
    scan.run (index + 1) rest

end ArgsScan

def validateJsonArgsBlob (blob : Text) : Except Text Unit := do
  refuseIf (MAX_JSON_ARGS_BYTES < byteLen blob)
    ("args blob too large (".toList ++ number (byteLen blob) ++ " bytes, max ".toList ++ number MAX_JSON_ARGS_BYTES ++ ")".toList)
  let trimmed := trim blob
  refuseIf (trimmed = []) "args blob must not be empty".toList
  refuseIf (trimmed.head? ≠ some '\x7b' ∧ trimmed.head? ≠ some '[')
    "args blob must be a JSON object or array (e.g. -- '\x7b\"terminal_id\": \"t:4\"\x7d')".toList
  let scan ← ArgsScan.run {} 0 trimmed
  refuseIf (scan.inString = true) "args blob has an unterminated string".toList
  refuseIf (scan.stack ≠ []) "args blob has unbalanced brackets".toList
  match scan.rootEnd with
  | some ending =>
    refuseIf (trim (trimmed.drop ending) ≠ [])
      "args blob must hold exactly one root value (bytes follow its closing bracket)".toList
  | none => .error "args blob has unbalanced brackets".toList

/-! What the gate is for, in its own terms: the brackets outside of strings make one tree. -/

def closerOf : Char → Option Char
  | '\x7b' => some '\x7d'
  | '[' => some ']'
  | _ => none

def IsCloser (c : Char) : Prop := c = '\x7d' ∨ c = ']'

instance (c : Char) : Decidable (IsCloser c) := inferInstanceAs (Decidable (_ ∨ _))

/-- A text whose brackets all have their partners, nested to at most so many levels. -/
inductive Nested : Nat → Text → Prop
  | nil {depth} : Nested depth []
  | plain {depth c rest} (opener : closerOf c = none) (closer : ¬IsCloser c) (behind : Nested depth rest) : Nested depth (c :: rest)
  | tree {depth opener closer inner rest} (pair : closerOf opener = some closer) (within : Nested depth inner)
    (behind : Nested (depth + 1) rest) : Nested (depth + 1) (opener :: (inner ++ closer :: rest))

/-- One tree from the first character to the last, of at most so many levels. -/
def IsTree (depth : Nat) (text : Text) : Prop :=
  ∃ d opener closer inner, depth = d + 1 ∧ closerOf opener = some closer ∧ Nested d inner ∧ text = opener :: (inner ++ [closer])

/-- The text with every string literal covered by quotes, if none is left open. -/
def mask : Bool → Bool → Text → Option Text
  | inString, _, [] => if inString then none else some []
  | true, true, _ :: rest => (mask true false rest).map ('"' :: ·)
  | true, false, c :: rest => (mask (c ≠ '"') (c = '\\') rest).map ('"' :: ·)
  | false, _, c :: rest => (mask (c = '"') false rest).map (c :: ·)

/-- What is left to be read closes the brackets that are open, the innermost first, and ends there. -/
def Closing (limit : Nat) : List Char → Text → Prop
  | [], text => text = []
  | closer :: stack, text =>
    ∃ inner rest, text = inner ++ closer :: rest ∧ Nested (limit - (stack.length + 1)) inner ∧ Closing limit stack rest

section

variable {limit : Nat} {stack : List Char} {closer c : Char} {text : Text}

theorem not_closing_nil : ¬Closing limit (closer :: stack) [] := by
  rintro ⟨inner, rest, shape, -⟩
  simp at shape

theorem closing_plain (opener : closerOf c = none) (other : ¬IsCloser c) (top : IsCloser closer) :
    Closing limit (closer :: stack) (c :: text) ↔ Closing limit (closer :: stack) text := by
  constructor
  · rintro ⟨inner, rest, shape, nested, later⟩
    generalize levels : limit - (stack.length + 1) = depth at nested
    cases nested with
    | nil =>
      obtain ⟨rfl, -⟩ := List.cons.inj shape
      exact absurd top other
    | plain _ _ behind =>
      obtain ⟨rfl, rfl⟩ := List.cons.inj shape
      exact ⟨_, rest, rfl, levels ▸ behind, later⟩
    | tree pair _ _ =>
      obtain ⟨rfl, -⟩ := List.cons.inj shape
      rw [opener] at pair
      cases pair
  · rintro ⟨inner, rest, rfl, nested, later⟩
    exact ⟨c :: inner, rest, rfl, .plain opener other nested, later⟩

theorem not_isCloser_of_closerOf {k : Char} (pair : closerOf c = some k) : ¬IsCloser c ∧ IsCloser k := by
  unfold closerOf at pair
  split at pair <;> cases pair <;> decide

theorem closing_open {k : Char} (pair : closerOf c = some k) (top : IsCloser closer) (room : stack.length + 1 ≤ limit) :
    Closing limit (closer :: stack) (c :: text) ↔ stack.length + 2 ≤ limit ∧ Closing limit (k :: closer :: stack) text := by
  constructor
  · rintro ⟨inner, rest, shape, nested, later⟩
    generalize levels : limit - (stack.length + 1) = depth at nested
    cases nested with
    | nil =>
      obtain ⟨rfl, -⟩ := List.cons.inj shape
      exact absurd top (not_isCloser_of_closerOf pair).1
    | plain opener _ _ =>
      obtain ⟨rfl, -⟩ := List.cons.inj shape
      rw [pair] at opener
      cases opener
    | @tree d _ k' within' behind' pair' within behind =>
      obtain ⟨rfl, rfl⟩ := List.cons.inj shape
      rw [pair] at pair'
      obtain rfl := Option.some.inj pair'
      refine ⟨by omega, within', behind' ++ closer :: rest, by simp, ?_, behind', rest, rfl, ?_, later⟩
      · have same : limit - ((closer :: stack).length + 1) = d := by
          rw [List.length_cons]
          omega
        rwa [same]
      · rwa [levels]
  · rintro ⟨deeper, within, rest, rfl, nested, behind, later, rfl, nested', closing⟩
    refine ⟨c :: (within ++ k :: behind), later, by simp, ?_, closing⟩
    obtain ⟨d, levels⟩ : ∃ d, limit - (stack.length + 1) = d + 1 := ⟨limit - (stack.length + 2), by omega⟩
    have same : limit - ((closer :: stack).length + 1) = d := by
      rw [List.length_cons]
      omega
    rw [same] at nested
    rw [levels] at nested' ⊢
    exact .tree pair nested nested'

theorem closing_close (other : IsCloser c) :
    Closing limit (closer :: stack) (c :: text) ↔ c = closer ∧ Closing limit stack text := by
  constructor
  · rintro ⟨inner, rest, shape, nested, later⟩
    generalize limit - (stack.length + 1) = depth at nested
    cases nested with
    | nil =>
      obtain ⟨rfl, rfl⟩ := List.cons.inj shape
      exact ⟨rfl, later⟩
    | plain _ plain _ =>
      obtain ⟨rfl, -⟩ := List.cons.inj shape
      exact absurd other plain
    | tree pair _ _ =>
      obtain ⟨rfl, -⟩ := List.cons.inj shape
      exact absurd other (not_isCloser_of_closerOf pair).1
  · rintro ⟨rfl, later⟩
    exact ⟨[], text, rfl, .nil, later⟩

end

/-! The scan accepts what closes its stack. -/

namespace ArgsScan

def Ends (whole : Text) (scan : ArgsScan) : Prop :=
  scan.inString = false ∧ scan.stack = [] ∧ ∃ ending, scan.rootEnd = some ending ∧ trim (whole.drop ending) = []

def Accepts (whole : Text) (scan : ArgsScan) (index : Nat) (text : Text) : Prop :=
  ∃ final : ArgsScan, scan.run index text = .ok final ∧ final.Ends whole

variable {whole text : Text} {scan scan' : ArgsScan} {index : Nat} {c : Char}

theorem accepts_nil : Accepts whole scan index [] ↔ scan.Ends whole := by
  constructor
  · rintro ⟨final, ran, ends⟩
    exact Except.ok.inj ran ▸ ends
  · exact fun ends => ⟨scan, rfl, ends⟩

theorem accepts_cons :
    Accepts whole scan index (c :: text) ↔ ∃ scan', scan.step index c = .ok scan' ∧ Accepts whole scan' (index + 1) text := by
  constructor
  · rintro ⟨final, ran, ends⟩
    obtain ⟨scan', first, later⟩ := Except.bind_ok ran
    exact ⟨scan', first, final, later, ends⟩
  · rintro ⟨scan', first, final, later, ends⟩
    exact ⟨final, bind_ok_iff.mpr ⟨scan', first, later⟩, ends⟩

theorem accepts_cons_of_step (stepped : scan.step index c = .ok scan') :
    Accepts whole scan index (c :: text) ↔ Accepts whole scan' (index + 1) text := by
  rw [accepts_cons, stepped]
  simp

theorem not_accepts_of_error {e : Text} (refused : scan.step index c = .error e) : ¬Accepts whole scan index (c :: text) := by
  rw [accepts_cons, refused]
  simp

theorem rootEnd_step {ending : Nat} (set : scan.rootEnd = some ending) (stepped : scan.step index c = .ok scan') :
    scan'.rootEnd = some ending := by
  unfold step at stepped
  split_ifs at stepped with inString escaped backslash quote
  · cases stepped
    exact set
  · cases stepped
    exact set
  · cases stepped
    exact set
  · cases stepped
    exact set
  · obtain ⟨next, outer, stepped⟩ := Except.bind_ok stepped
    obtain ⟨-, stepped⟩ := seq_ok.mp stepped
    cases stepped
    unfold outside close at outer
    split_ifs at outer with quote brace bracket closer mismatch first
    · cases outer
      exact set
    · cases outer
      exact set
    · cases outer
      exact set
    · cases outer
      rw [set] at first
      cases first.2
    · cases outer
      exact set
    · cases outer
      exact set

theorem rootEnd_run {ending : Nat} (set : scan.rootEnd = some ending) (ran : scan.run index text = .ok scan') :
    scan'.rootEnd = some ending := by
  induction text generalizing scan index with
  | nil => exact Except.ok.inj ran ▸ set
  | cons c rest ih =>
    obtain ⟨next, first, later⟩ := Except.bind_ok ran
    exact ih (rootEnd_step set first) later

theorem accepts_behind (last : ∀ c ∈ whole.getLast?, isWhitespace c = false) (behind : whole.drop index = text)
    (set : scan.rootEnd = some index) (closed : scan.stack = []) (plain : scan.inString = false) :
    Accepts whole scan index text ↔ text = [] := by
  constructor
  · rintro ⟨final, ran, -, -, ending, found, blank⟩
    rw [rootEnd_run set ran] at found
    obtain rfl := Option.some.inj found
    rw [behind] at blank
    by_contra some
    obtain ⟨l, r, blankL, blankR, shape⟩ := padded_trim text
    rw [blank, List.append_nil] at shape
    have final : whole.getLast? = Option.some (text.getLast some) := by
      rw [← List.take_append_drop index whole, behind, List.getLast?_append, List.getLast?_eq_some_getLast some, Option.some_or]
    have white : isWhitespace (text.getLast some) = true := by
      have inside : text.getLast some ∈ l ++ r := shape ▸ List.getLast_mem some
      exact (List.mem_append.mp inside).elim (blankL _) (blankR _)
    rw [last _ final] at white
    cases white
  · rintro rfl
    rw [accepts_nil]
    refine ⟨plain, closed, index, set, ?_⟩
    rw [behind]
    rfl

structure Open (scan : ArgsScan) : Prop where
  depth : scan.depth = scan.stack.length
  room : scan.stack.length ≤ MAX_JSON_ARGS_DEPTH
  closers : ∀ c ∈ scan.stack, IsCloser c
  unset : scan.rootEnd = none

theorem step_outside (plain : scan.inString = false) {next : ArgsScan} (outer : scan.outside index c = .ok next)
    (room : next.depth ≤ MAX_JSON_ARGS_DEPTH) : scan.step index c = .ok next := by
  rw [step, plain, if_neg Bool.false_ne_true]
  exact bind_ok_iff.mpr ⟨next, outer, seq_ok.mpr ⟨refuseIf_ok.mpr (Nat.not_lt.mpr room), rfl⟩⟩

theorem Open.of_stack (inside : scan.Open) (stack : scan'.stack = scan.stack) (depth : scan'.depth = scan.depth)
    (rootEnd : scan'.rootEnd = scan.rootEnd) : scan'.Open where
  depth := by rw [depth, stack, inside.depth]
  room := stack ▸ inside.room
  closers := stack ▸ inside.closers
  unset := rootEnd ▸ inside.unset

theorem exists_map_cons {o : Option Text} {d : Char} {P : Text → Prop} :
    (∃ masked, o.map (d :: ·) = some masked ∧ P masked) ↔ ∃ masked, o = some masked ∧ P (d :: masked) := by
  constructor
  · rintro ⟨masked, mapped, holds⟩
    obtain ⟨rest, found, rfl⟩ := Option.map_eq_some_iff.mp mapped
    exact ⟨rest, found, holds⟩
  · rintro ⟨rest, rfl, holds⟩
    exact ⟨d :: rest, rfl, holds⟩

theorem mask_nil_iff : (∃ masked, mask false false text = some masked ∧ masked = []) ↔ text = [] := by
  cases text with
  | nil => simp [mask]
  | cons c rest => simp [mask]

theorem outside_open {k : Char} (pair : closerOf c = some k) :
    scan.outside index c = .ok { scan with stack := k :: scan.stack, depth := scan.depth + 1 } := by
  unfold closerOf at pair
  split at pair <;> cases pair <;> rfl

theorem outside_close (closer : IsCloser c) : scan.outside index c = scan.close index c := by
  rcases closer with rfl | rfl <;> rfl

def Faithful (whole : Text) (scan : ArgsScan) (index : Nat) (text : Text) : Prop :=
  Accepts whole scan index text ↔
    ∃ masked, mask scan.inString scan.escaped text = some masked ∧ Closing MAX_JSON_ARGS_DEPTH scan.stack masked

structure Within (scan : ArgsScan) (closer : Char) (stack : List Char) : Prop extends scan.Open where
  shape : scan.stack = closer :: stack
  escapes : scan.escaped = true → scan.inString = true

namespace Within

variable {closer : Char} {stack : List Char}

theorem top (within : scan.Within closer stack) : IsCloser closer := within.closers closer (within.shape ▸ List.mem_cons_self)

theorem length (within : scan.Within closer stack) : scan.depth = stack.length + 1 := by
  rw [within.depth, within.shape, List.length_cons]

theorem room' (within : scan.Within closer stack) : stack.length + 1 ≤ MAX_JSON_ARGS_DEPTH :=
  within.length ▸ within.depth ▸ within.room

theorem not_escaped (within : scan.Within closer stack) (plain : scan.inString = false) : scan.escaped = false := by
  rw [Bool.eq_false_iff]
  intro on
  rw [within.escapes on] at plain
  cases plain

theorem keep (within : scan.Within closer stack) (stepped : scan.step index c = .ok scan') (stack' : scan'.stack = scan.stack)
    (depth : scan'.depth = scan.depth) (rootEnd : scan'.rootEnd = scan.rootEnd)
    (escapes : scan'.escaped = true → scan'.inString = true) {d : Char} (opener : closerOf d = none) (other : ¬IsCloser d)
    (covered : mask scan.inString scan.escaped (c :: text) = (mask scan'.inString scan'.escaped text).map (d :: ·))
    (ih : ∀ (next : ArgsScan) closer stack, next.Within closer stack → Faithful whole next (index + 1) text) :
    Faithful whole scan index (c :: text) := by
  have later := ih scan' closer stack ⟨within.toOpen.of_stack stack' depth rootEnd, stack'.trans within.shape, escapes⟩
  unfold Faithful at later ⊢
  rw [accepts_cons_of_step stepped, covered, exists_map_cons, within.shape]
  rw [stack', within.shape] at later
  simpa only [closing_plain opener other within.top] using later

theorem faithful_inside (within : scan.Within closer stack) (inString : scan.inString = true)
    (ih : ∀ (next : ArgsScan) closer stack, next.Within closer stack → Faithful whole next (index + 1) text) :
    Faithful whole scan index (c :: text) := by
  cases escape : scan.escaped with
  | true =>
    have stepped : scan.step index c = .ok { scan with escaped := false } := by
      rw [step, inString, escape]
      rfl
    refine within.keep stepped rfl rfl rfl nofun (rfl : closerOf '"' = none) (by decide) ?_ ih
    rw [inString, escape]
    rfl
  | false =>
    have covered : mask true false (c :: text) = (mask (decide (c ≠ '"')) (decide (c = '\\')) text).map ('"' :: ·) := rfl
    by_cases backslash : c = '\\'
    · subst backslash
      have stepped : scan.step index '\\' = .ok { scan with escaped := true } := by
        rw [step, inString, escape]
        rfl
      refine within.keep stepped rfl rfl rfl (fun _ => inString) (rfl : closerOf '"' = none) (by decide) ?_ ih
      rw [inString, escape, covered]
      rfl
    · by_cases quote : c = '"'
      · subst quote
        have stepped : scan.step index '"' = .ok { scan with inString := false } := by
          rw [step, inString, escape]
          rfl
        refine within.keep stepped rfl rfl rfl (fun on => ?_) (rfl : closerOf '"' = none) (by decide) ?_ ih
        · rw [escape] at on
          cases on
        · rw [inString, escape, covered]
          rfl
      · have stepped : scan.step index c = .ok scan := by
          rw [step, inString, escape, if_pos rfl, if_neg Bool.false_ne_true, if_neg backslash, if_neg quote]
        refine within.keep stepped rfl rfl rfl within.escapes (rfl : closerOf '"' = none) (by decide) ?_ ih
        rw [inString, escape, covered, decide_eq_true quote, decide_eq_false backslash]

theorem covered (within : scan.Within closer stack) (plain : scan.inString = false) (quote : c ≠ '"') :
    mask scan.inString scan.escaped (c :: text) = (mask false false text).map (c :: ·) := by
  rw [plain, within.not_escaped plain, mask, decide_eq_false quote]

theorem faithful_plain (within : scan.Within closer stack) (plain : scan.inString = false) (quote : c ≠ '"')
    (opener : closerOf c = none) (other : ¬IsCloser c)
    (ih : ∀ (next : ArgsScan) closer stack, next.Within closer stack → Faithful whole next (index + 1) text) :
    Faithful whole scan index (c :: text) := by
  have outer : scan.outside index c = .ok scan := by
    have brace : c ≠ '\x7b' := by
      rintro rfl
      cases opener
    have bracket : c ≠ '[' := by
      rintro rfl
      cases opener
    rw [outside, if_neg quote, if_neg brace, if_neg bracket]
    exact if_neg other
  refine within.keep (step_outside plain outer (within.depth ▸ within.room)) rfl rfl rfl within.escapes opener other ?_ ih
  rw [within.covered plain quote, plain, within.not_escaped plain]

theorem faithful_quote (within : scan.Within closer stack) (plain : scan.inString = false)
    (ih : ∀ (next : ArgsScan) closer stack, next.Within closer stack → Faithful whole next (index + 1) text) :
    Faithful whole scan index ('"' :: text) := by
  have stepped : scan.step index '"' = .ok { scan with inString := true } :=
    step_outside plain rfl (within.depth ▸ within.room)
  refine within.keep stepped rfl rfl rfl (fun _ => rfl) (rfl : closerOf '"' = none) (by decide) ?_ ih
  rw [plain, within.not_escaped plain]
  rfl

theorem faithful_open (within : scan.Within closer stack) (plain : scan.inString = false) (quote : c ≠ '"') {k : Char}
    (pair : closerOf c = some k)
    (ih : ∀ (next : ArgsScan) closer stack, next.Within closer stack → Faithful whole next (index + 1) text) :
    Faithful whole scan index (c :: text) := by
  have depth := within.length
  unfold Faithful
  rw [within.covered plain quote, exists_map_cons, within.shape]
  simp only [closing_open pair within.top within.room']
  by_cases deeper : stack.length + 2 ≤ MAX_JSON_ARGS_DEPTH
  · have stepped : scan.step index c = .ok { scan with stack := k :: scan.stack, depth := scan.depth + 1 } := by
      refine step_outside plain (outside_open pair) ?_
      dsimp only
      omega
    have within' : Within { scan with stack := k :: scan.stack, depth := scan.depth + 1 } k (closer :: stack) := {
      depth := by rw [within.depth, List.length_cons]
      room := by
        rw [List.length_cons, ← within.depth]
        omega
      closers := List.forall_mem_cons.mpr ⟨(not_isCloser_of_closerOf pair).2, within.closers⟩
      unset := within.unset
      shape := congrArg (k :: ·) within.shape
      escapes := within.escapes }
    have later := ih _ _ _ within'
    unfold Faithful at later
    rw [accepts_cons_of_step stepped]
    simp only [deeper, true_and]
    have masks : mask scan.inString scan.escaped text = mask false false text := by rw [plain, within.not_escaped plain]
    rw [within'.shape] at later
    change _ ↔ ∃ masked, mask scan.inString scan.escaped text = some masked ∧ _ at later
    rwa [masks] at later
  · have refused : scan.step index c = .error tooDeep := by
      have deep : MAX_JSON_ARGS_DEPTH < scan.depth + 1 := by omega
      rw [step, plain, if_neg Bool.false_ne_true, outside_open pair]
      change (refuseIf (MAX_JSON_ARGS_DEPTH < scan.depth + 1) tooDeep >>= fun _ => _) = _
      rw [refuseIf, if_pos deep]
      rfl
    simp only [deeper, false_and, and_false, exists_false, not_accepts_of_error refused]

theorem faithful_close (within : scan.Within closer stack) (last : ∀ c ∈ whole.getLast?, isWhitespace c = false)
    (behind : whole.drop (index + 1) = text) (plain : scan.inString = false) (quote : c ≠ '"') (other : IsCloser c)
    (ih : ∀ (next : ArgsScan) closer stack, next.Within closer stack → Faithful whole next (index + 1) text) :
    Faithful whole scan index (c :: text) := by
  have depth := within.length
  have room := within.room'
  unfold Faithful
  rw [within.covered plain quote, exists_map_cons, within.shape]
  simp only [closing_close other]
  by_cases same : c = closer
  · subst same
    simp only [true_and]
    generalize set : (if scan.depth - 1 = 0 ∧ scan.rootEnd.isNone then some (index + 1) else scan.rootEnd) = rootEnd
    have closed : scan.close index c = .ok { scan with stack, depth := scan.depth - 1, rootEnd } := by
      rw [close, within.shape, set]
      exact if_neg (not_not_intro rfl)
    have stepped := step_outside plain ((outside_close other).trans closed) (by dsimp only; omega)
    rw [accepts_cons_of_step stepped]
    cases stack with
    | nil =>
      rw [if_pos ⟨by rw [depth]; rfl, by rw [within.unset]; rfl⟩] at set
      have ended : Accepts whole { scan with stack := [], depth := scan.depth - 1, rootEnd } (index + 1) text ↔ text = [] :=
        accepts_behind last behind set.symm rfl plain
      exact ended.trans mask_nil_iff.symm
    | cons closer' stack =>
      have deeper : scan.depth - 1 = stack.length + 1 := by
        rw [depth, List.length_cons]
        rfl
      rw [if_neg (by omega), within.unset] at set
      have within' : Within { scan with stack := closer' :: stack, depth := scan.depth - 1, rootEnd } closer' stack := {
        depth := deeper
        room := by
          rw [List.length_cons] at room ⊢
          omega
        closers := fun d member => within.closers d (within.shape ▸ List.mem_cons_of_mem _ member)
        unset := set.symm
        shape := rfl
        escapes := within.escapes }
      have later := ih _ _ _ within'
      have masks : mask scan.inString scan.escaped text = mask false false text := by rw [plain, within.not_escaped plain]
      unfold Faithful at later
      change _ ↔ ∃ masked, mask scan.inString scan.escaped text = some masked ∧ _ at later
      rwa [masks] at later
  · have refused : scan.step index c = .error "args blob has unbalanced brackets".toList := by
      have mismatch : some closer ≠ some c := fun eq => same (Option.some.inj eq).symm
      rw [step, plain, if_neg Bool.false_ne_true, outside_close other, close, within.shape, List.head?_cons, if_pos mismatch]
      rfl
    simp only [same, false_and, and_false, exists_false, not_accepts_of_error refused]

theorem faithful (within : scan.Within closer stack) (last : ∀ c ∈ whole.getLast?, isWhitespace c = false)
    (behind : whole.drop index = text) : Faithful whole scan index text := by
  induction text generalizing scan index closer stack with
  | nil =>
    unfold Faithful
    rw [accepts_nil, Ends, within.shape]
    refine iff_of_false (fun ends => absurd ends.2.1 (List.cons_ne_nil _ _)) ?_
    rintro ⟨masked, covered, closing⟩
    cases plain : scan.inString with
    | true => simp [mask, plain] at covered
    | false =>
      simp only [mask, plain, Bool.false_eq_true, if_false, Option.some.injEq] at covered
      exact not_closing_nil (covered ▸ closing)
  | cons c rest ih =>
    have behind' : whole.drop (index + 1) = rest := by rw [← List.drop_drop, behind, List.drop_one, List.tail_cons]
    have next (scan' : ArgsScan) (closer : Char) (stack : List Char) (within : scan'.Within closer stack) :
        Faithful whole scan' (index + 1) rest := ih within behind'
    cases plain : scan.inString with
    | true => exact within.faithful_inside plain next
    | false =>
      by_cases quote : c = '"'
      · subst quote
        exact within.faithful_quote plain next
      · cases pair : closerOf c with
        | some k => exact within.faithful_open plain quote pair next
        | none =>
          by_cases other : IsCloser c
          · exact within.faithful_close last behind' plain quote other next
          · exact within.faithful_plain plain quote pair other next

end Within

end ArgsScan

/-! The gate as a whole. -/

def WellNested (blob : Text) : Prop := ∃ masked, mask false false (trim blob) = some masked ∧ IsTree MAX_JSON_ARGS_DEPTH masked

theorem last_trim (text : Text) : ∀ c ∈ (trim text).getLast?, isWhitespace c = false := by
  intro c member
  rw [trim, List.getLast?_reverse] at member
  have dark := List.head?_dropWhile_not isWhitespace (text.dropWhile isWhitespace).reverse
  rw [member] at dark
  simpa using dark

theorem isTree_iff {depth : Nat} {opener closer : Char} {text : Text} (positive : 0 < depth)
    (pair : closerOf opener = some closer) :
    IsTree depth (opener :: text) ↔ Closing depth [closer] text := by
  constructor
  · rintro ⟨d, opener', closer', inner, rfl, pair', nested, shape⟩
    obtain ⟨rfl, rfl⟩ := List.cons.inj shape
    rw [pair] at pair'
    obtain rfl := Option.some.inj pair'
    exact ⟨inner, [], rfl, nested, rfl⟩
  · rintro ⟨inner, rest, rfl, nested, rfl⟩
    exact ⟨depth - 1, opener, closer, inner, by omega, pair, nested, rfl⟩

theorem closerOf_eq_none {c : Char} : closerOf c = none ↔ c ≠ '\x7b' ∧ c ≠ '[' := by
  unfold closerOf
  split <;> simp_all

theorem validateJsonArgsBlob_ok {blob : Text} (small : byteLen blob ≤ MAX_JSON_ARGS_BYTES) : validateJsonArgsBlob blob = .ok () ↔
    ∃ opener rest k, trim blob = opener :: rest ∧ closerOf opener = some k ∧ ArgsScan.Accepts (trim blob) {} 0 (trim blob) := by
  constructor
  · intro valid
    obtain ⟨-, valid⟩ := seq_ok.mp valid
    obtain ⟨nonempty, valid⟩ := seq_ok.mp valid
    obtain ⟨rooted, valid⟩ := seq_ok.mp valid
    obtain ⟨final, ran, valid⟩ := Except.bind_ok valid
    obtain ⟨plain, valid⟩ := seq_ok.mp valid
    obtain ⟨closed, ended⟩ := seq_ok.mp valid
    obtain ⟨opener, rest, shape⟩ := List.exists_cons_of_ne_nil (refuseIf_ok.mp nonempty)
    have rooted := refuseIf_ok.mp rooted
    rw [shape, List.head?_cons, ne_eq, Option.some.injEq, ne_eq, Option.some.injEq] at rooted
    obtain ⟨k, pair⟩ := Option.ne_none_iff_exists'.mp (mt closerOf_eq_none.mp rooted)
    refine ⟨opener, rest, k, shape, pair, final, ran, Bool.eq_false_iff.mpr (refuseIf_ok.mp plain),
      not_not.mp (refuseIf_ok.mp closed), ?_⟩
    split at ended
    next ending set => exact ⟨ending, set, not_not.mp (refuseIf_ok.mp ended)⟩
    next => cases ended
  · rintro ⟨opener, rest, k, shape, pair, final, ran, plain, closed, ending, set, blank⟩
    have some : trim blob ≠ [] := by
      rw [shape]
      exact List.cons_ne_nil _ _
    have rooted : ¬((trim blob).head? ≠ Option.some '\x7b' ∧ (trim blob).head? ≠ Option.some '[') := by
      rw [shape, List.head?_cons, ne_eq, Option.some.injEq, ne_eq, Option.some.injEq]
      intro neither
      rw [closerOf_eq_none.mpr neither] at pair
      cases pair
    refine seq_ok.mpr ⟨refuseIf_ok.mpr (Nat.not_lt.mpr small), seq_ok.mpr ⟨refuseIf_ok.mpr some, ?_⟩⟩
    refine seq_ok.mpr ⟨refuseIf_ok.mpr rooted, bind_ok_iff.mpr ⟨final, ran, ?_⟩⟩
    refine seq_ok.mpr ⟨refuseIf_ok.mpr (by rw [plain]; exact Bool.false_ne_true), ?_⟩
    refine seq_ok.mpr ⟨refuseIf_ok.mpr (not_not_intro closed), ?_⟩
    rw [set]
    exact refuseIf_ok.mpr (not_not_intro blank)

theorem validateJsonArgsBlob_iff {blob : Text} (small : byteLen blob ≤ MAX_JSON_ARGS_BYTES) :
    validateJsonArgsBlob blob = .ok () ↔ WellNested blob := by
  rw [validateJsonArgsBlob_ok small, WellNested]
  cases shape : trim blob with
  | nil => simp [mask, IsTree]
  | cons opener rest =>
    rw [mask, ArgsScan.exists_map_cons]
    cases pair : closerOf opener with
    | none =>
      refine iff_of_false ?_ ?_
      · rintro ⟨c, rest', k, same, pair', -⟩
        obtain ⟨rfl, -⟩ := List.cons.inj same
        rw [pair] at pair'
        cases pair'
      · rintro ⟨masked, -, d, c, k, inner, -, pair', -, same⟩
        obtain ⟨rfl, -⟩ := List.cons.inj same
        rw [pair] at pair'
        cases pair'
    | some k =>
      have quote : opener ≠ '"' := by
        rintro rfl
        cases pair
      have stepped : ArgsScan.step {} 0 opener = .ok { stack := [k], depth := 1 } :=
        ArgsScan.step_outside rfl (ArgsScan.outside_open pair) (by decide : 1 ≤ MAX_JSON_ARGS_DEPTH)
      have within : ArgsScan.Within { stack := [k], depth := 1 } k [] := {
        depth := rfl
        room := (by decide : 1 ≤ MAX_JSON_ARGS_DEPTH)
        closers := fun d member => List.mem_singleton.mp member ▸ (not_isCloser_of_closerOf pair).2
        unset := rfl
        shape := rfl
        escapes := nofun }
      have later : ArgsScan.Faithful (opener :: rest) { stack := [k], depth := 1 } 1 rest :=
        within.faithful (shape ▸ last_trim blob) rfl
      unfold ArgsScan.Faithful at later
      simp only [isTree_iff (by decide : 0 < MAX_JSON_ARGS_DEPTH) pair, decide_eq_false quote]
      refine Iff.trans ⟨?_, fun accepts => ⟨opener, rest, k, rfl, pair, ?_⟩⟩ later
      · rintro ⟨-, -, -, -, -, accepts⟩
        exact (ArgsScan.accepts_cons_of_step stepped).mp accepts
      · exact (ArgsScan.accepts_cons_of_step stepped).mpr accepts

/-! What the parser of the arguments accepts passes the gate. -/

open Plugin.Store

theorem Nested.append {depth : Nat} {a b : Text} (first : Nested depth a) (second : Nested depth b) : Nested depth (a ++ b) := by
  induction first with
  | nil => exact second
  | plain opener closer _ ih => exact .plain opener closer (ih second)
  | tree pair within _ _ ih =>
    rw [List.cons_append, List.append_assoc, List.cons_append]
    exact .tree pair within (ih second)

theorem Nested.mono {depth depth' : Nat} {text : Text} (nested : Nested depth text) (le : depth ≤ depth') : Nested depth' text := by
  induction nested generalizing depth' with
  | nil => exact .nil
  | plain opener closer _ ih => exact .plain opener closer (ih le)
  | tree pair _ _ ih ih' =>
    obtain ⟨more, rfl⟩ : ∃ n, depth' = n + 1 := ⟨depth' - 1, by omega⟩
    exact .tree pair (ih (by omega)) (ih' le)

def Plain (c : Char) : Prop := c ≠ '"' ∧ closerOf c = none ∧ ¬IsCloser c

instance (c : Char) : Decidable (Plain c) := inferInstanceAs (Decidable (_ ∧ _))

def Covers (text masked : Text) : Prop := ∀ rest, mask false false (text ++ rest) = (mask false false rest).map (masked ++ ·)

theorem Covers.append {a b x y : Text} (first : Covers a x) (second : Covers b y) : Covers (a ++ b) (x ++ y) := by
  intro rest
  rw [List.append_assoc, first, second, Option.map_map]
  simp [Function.comp_def]

theorem Covers.cons {c : Char} (quote : c ≠ '"') {text masked : Text} (covers : Covers text masked) :
    Covers (c :: text) (c :: masked) := by
  intro rest
  rw [List.cons_append, mask, decide_eq_false quote, covers, Option.map_map]
  rfl

theorem Covers.nil : Covers [] [] := by
  intro rest
  simp

def Piece (depth : Nat) (l r : Text) : Prop := ∃ text masked, l = text ++ r ∧ Covers text masked ∧ Nested depth masked

namespace Piece

variable {depth : Nat} {l m r : Text}

theorem trans (first : Piece depth l m) (second : Piece depth m r) : Piece depth l r := by
  obtain ⟨a, x, rfl, covers, nested⟩ := first
  obtain ⟨b, y, rfl, covers', nested'⟩ := second
  exact ⟨a ++ b, x ++ y, (List.append_assoc _ _ _).symm, covers.append covers', nested.append nested'⟩

theorem of_plain (text : Text) (plain : ∀ c ∈ text, Plain c) : Piece depth (text ++ r) r := by
  refine ⟨text, text, rfl, ?_, ?_⟩
  · induction text with
    | nil => exact .nil
    | cons c text ih =>
      obtain ⟨first, others⟩ := List.forall_mem_cons.mp plain
      exact (ih others).cons first.1
  · induction text with
    | nil => exact .nil
    | cons c text ih =>
      obtain ⟨first, others⟩ := List.forall_mem_cons.mp plain
      exact .plain first.2.1 first.2.2 (ih others)

theorem tree {opener k : Char} (pair : closerOf opener = some k) (piece : Piece depth l (k :: r)) :
    Piece (depth + 1) (opener :: l) r := by
  obtain ⟨text, masked, rfl, covers, nested⟩ := piece
  have quote : opener ≠ '"' ∧ k ≠ '"' := by
    unfold closerOf at pair
    split at pair <;> cases pair <;> decide
  refine ⟨opener :: (text ++ [k]), opener :: (masked ++ [k]), by simp, ?_, .tree pair nested .nil⟩
  exact (covers.append (Covers.nil.cons quote.2)).cons quote.1

end Piece

theorem piece_of_blanks {depth : Nat} {l r : Text} (blanks : Blanks coded l r) : Piece depth l r := by
  obtain ⟨gap, blank, rfl⟩ := blanks
  refine .of_plain gap fun c member => ?_
  have white : isAsciiWhitespace c = true := blank c member
  rw [isAsciiWhitespace, decide_eq_true_eq] at white
  rcases white with rfl | rfl | rfl | rfl | rfl <;> decide

theorem plain_of_isNumeric {c : Char} (numeric : isNumeric c = true) : Plain c := by
  refine ⟨?_, ?_, ?_⟩
  · rintro rfl
    cases numeric
  · rw [closerOf_eq_none]
    constructor <;> (rintro rfl; cases numeric)
  · rintro (rfl | rfl) <;> cases numeric

theorem inside_of_code {w x y z d : Char} (code : coded.code w x y z d) : ∀ c ∈ [w, x, y, z], c ≠ '"' ∧ c ≠ '\\' := by
  obtain ⟨n, hex, -⟩ := Option.bind_eq_some_iff.mp code
  have plain {text : Text} {n : Nat} (read : readDigits hexValue 16 0 text = some n) :
      ∀ c ∈ text, c ≠ '"' ∧ c ≠ '\\' := fun c member =>
    ⟨(hexValue_plain (hexValue_of_readDigits read c member)).1, (hexValue_plain (hexValue_of_readDigits read c member)).2.1⟩
  by_cases sign : w = '+'
  · subst sign
    exact List.forall_mem_cons.mpr ⟨by decide, plain hex⟩
  · rw [fromHex, stripPrefix_eq_none_of_head (Ne.symm sign)] at hex
    exact plain hex

theorem mask_inside {text : Text} (plain : ∀ c ∈ text, c ≠ '"' ∧ c ≠ '\\') (rest : Text) :
    mask true false (text ++ rest) = (mask true false rest).map (List.replicate text.length '"' ++ ·) := by
  induction text with
  | nil => simp
  | cons c text ih =>
    obtain ⟨first, others⟩ := List.forall_mem_cons.mp plain
    rw [List.cons_append, mask, decide_eq_true first.1, decide_eq_false first.2, ih others, Option.map_map]
    rfl

theorem covered_of_chars {l s r : Text} (chars : Chars coded l s r) :
    ∃ text n, l = text ++ r ∧ ∀ rest, mask true false (text ++ rest) = (mask false false rest).map (List.replicate n '"' ++ ·) := by
  induction chars with
  | done => exact ⟨['"'], 1, rfl, fun rest => rfl⟩
  | @unescaped l s r c high quote backslash _ ih =>
    obtain ⟨text, n, rfl, covered⟩ := ih
    refine ⟨c :: text, n + 1, rfl, fun rest => ?_⟩
    rw [List.cons_append, mask, decide_eq_true quote, decide_eq_false backslash, covered, Option.map_map]
    rfl
  | @escaped l s r c d simple _ ih =>
    obtain ⟨text, n, rfl, covered⟩ := ih
    refine ⟨'\\' :: c :: text, n + 2, rfl, fun rest => ?_⟩
    rw [List.cons_append, List.cons_append, mask]
    change ((mask true false (text ++ rest)).map _).map _ = _
    rw [covered, Option.map_map, Option.map_map]
    rfl
  | @code l s r w x y z d code _ ih =>
    obtain ⟨text, n, rfl, covered⟩ := ih
    refine ⟨'\\' :: 'u' :: ([w, x, y, z] ++ text), n + 6, rfl, fun rest => ?_⟩
    rw [List.cons_append, List.cons_append, mask]
    change ((mask true false ([w, x, y, z] ++ text ++ rest)).map _).map _ = _
    rw [List.append_assoc, mask_inside (inside_of_code code), covered, Option.map_map, Option.map_map, Option.map_map]
    rfl

theorem piece_of_chars {depth : Nat} {l s r : Text} (chars : Chars coded l s r) : Piece depth ('"' :: l) r := by
  obtain ⟨text, n, rfl, covered⟩ := covered_of_chars chars
  refine ⟨'"' :: text, List.replicate (n + 1) '"', rfl, fun rest => ?_, ?_⟩
  · rw [List.cons_append, mask]
    change (mask true false (text ++ rest)).map _ = _
    rw [covered, Option.map_map]
    rfl
  · induction n + 1 with
    | zero => exact .nil
    | succ n ih => exact .plain rfl (by decide) ih

section

variable {depth : Nat} {inner : Text → LuaValue → Text → Prop} {l r : Text}

theorem piece_of_element (pieces : ∀ l v r, inner l v r → Piece depth l r) {v : LuaValue} (element : Element coded inner l v r) :
    Piece depth l r := by
  obtain ⟨m, blanks, valued⟩ := element
  exact (piece_of_blanks blanks).trans (pieces _ _ _ valued)

theorem piece_of_member (pieces : ∀ l v r, inner l v r → Piece depth l r) {p : LuaValue × LuaValue}
    (member : Member coded inner l p r) : Piece depth l r := by
  obtain ⟨m, s, n, o, quote, chars, colon, element, -⟩ := member
  have mark : Piece depth (':' :: o) o := .of_plain [':'] (by decide)
  exact (piece_of_blanks quote).trans ((piece_of_chars chars).trans ((piece_of_blanks colon).trans
    (mark.trans (piece_of_element pieces element))))

theorem piece_of_listed {α : Type} {item : Text → α → Text → Prop} {close : Char} {as : List α}
    (items : ∀ l a r, item l a r → Piece depth l r) (listed : Reader.Listed item (Blanks coded) ',' close l as r) :
    Piece depth l (close :: r) := by
  induction listed with
  | last first closed => exact (items _ _ _ first).trans (piece_of_blanks closed)
  | @more l m n r a as first next _ ih =>
    have mark : Piece depth (',' :: n) n := .of_plain [','] (by decide)
    exact (items _ _ _ first).trans ((piece_of_blanks next).trans (mark.trans ih))

theorem pieces_of_oneLevel (pieces : ∀ l v r, inner l v r → Piece depth l r) {v : LuaValue} (one : OneLevel coded inner l v r) :
    (∀ pairs, v ≠ .table pairs) ∧ Piece (depth + 1) l r ∨
      ∃ opener k rest, l = opener :: rest ∧ closerOf opener = some k ∧ Piece depth rest (k :: r) := by
  cases one with
  | null => exact .inl ⟨nofun, .of_plain "null".toList (by decide)⟩
  | true_ => exact .inl ⟨nofun, .of_plain "true".toList (by decide)⟩
  | false_ => exact .inl ⟨nofun, .of_plain "false".toList (by decide)⟩
  | @number text v r number =>
    obtain ⟨-, numeric, read⟩ := number
    refine .inl ⟨?_, .of_plain text fun c member => plain_of_isNumeric (numeric c member)⟩
    rintro pairs rfl
    unfold numberOf at read
    split at read
    next => cases read
    next =>
      split at read
      next => cases read
      next => split at read <;> cases read
  | string chars => exact .inl ⟨nofun, piece_of_chars chars⟩
  | emptyArray closed => exact .inr ⟨_, _, _, rfl, rfl, piece_of_blanks closed⟩
  | array elements => exact .inr ⟨_, _, _, rfl, rfl, piece_of_listed (fun _ _ _ => piece_of_element pieces) elements⟩
  | emptyObject closed => exact .inr ⟨_, _, _, rfl, rfl, piece_of_blanks closed⟩
  | object members => exact .inr ⟨_, _, _, rfl, rfl, piece_of_listed (fun _ _ _ => piece_of_member pieces) members⟩

end

theorem piece_of_value {depth : Nat} {l r : Text} {v : LuaValue} (valued : Value coded depth l v r) : Piece depth l r := by
  induction depth generalizing l v r with
  | zero => cases valued
  | succ depth ih =>
    rcases pieces_of_oneLevel (fun _ _ _ => ih) valued with ⟨-, piece⟩ | ⟨opener, k, rest, rfl, pair, piece⟩
    · exact piece
    · exact piece.tree pair

theorem blank_of_coded {gap : Text} (blank : ∀ c ∈ gap, coded.blank c) : Blank gap := by
  intro c member
  have white : isAsciiWhitespace c = true := blank c member
  rw [isAsciiWhitespace, decide_eq_true_eq] at white
  rcases white with rfl | rfl | rfl | rfl | rfl <;> decide

theorem wellNested_of_parseJson {blob : Text} {pairs : List (LuaValue × LuaValue)} (parsed : parseJson blob = .ok (.table pairs)) :
    WellNested blob := by
  obtain ⟨r, ⟨m, ⟨gap, blank, rfl⟩, valued⟩, ⟨gap', blank', ended⟩⟩ := parseJson_iff.mp parsed
  rw [List.append_nil] at ended
  subst ended
  have pieces : ∀ l v r, Value coded 15 l v r → Piece 15 l r := fun _ _ _ => piece_of_value
  rcases pieces_of_oneLevel pieces valued with ⟨other, -⟩ | ⟨opener, k, rest, rfl, pair, text, masked, rfl, covers, nested⟩
  · exact absurd rfl (other pairs)
  · have dark : isWhitespace opener = false ∧ isWhitespace k = false ∧ opener ≠ '"' ∧ k ≠ '"' := by
      unfold closerOf at pair
      split at pair <;> cases pair <;> decide
    have solid : Solid (opener :: (text ++ [k])) := {
      first := ⟨opener, rfl, dark.1⟩
      last := ⟨k, by rw [← List.cons_append, List.getLast?_concat], dark.2.1⟩ }
    have split : opener :: (text ++ k :: r) = opener :: (text ++ [k]) ++ r := by simp
    have trimmed : trim (gap ++ opener :: (text ++ k :: r)) = opener :: (text ++ [k]) := by
      rw [trim_append_left (blank_of_coded blank), split, trim_append_right (blank_of_coded blank'), solid.trim_eq]
    refine ⟨opener :: (masked ++ [k]), ?_, 31, opener, k, masked, rfl, pair, nested.mono (by decide), rfl⟩
    have whole := ((covers.append (Covers.nil.cons dark.2.2.2)).cons dark.2.2.1) []
    rw [trimmed]
    simpa [mask] using whole

/-- The gate is exact, and no stricter than the parser. -/
theorem validateJsonArgsBlob_exact {blob : Text} (small : byteLen blob ≤ MAX_JSON_ARGS_BYTES) :
    (validateJsonArgsBlob blob = .ok () ↔ WellNested blob) ∧
      ∀ pairs, parseJson blob = .ok (.table pairs) → validateJsonArgsBlob blob = .ok () :=
  ⟨validateJsonArgsBlob_iff small, fun _ parsed => (validateJsonArgsBlob_iff small).mpr (wellNested_of_parseJson parsed)⟩

theorem validateJsonArgsBlob_exact_nested : validateJsonArgsBlob "[\x7b\x7d]".toList = .ok () := by
  have object : Element coded (Value coded 15) "\x7b\x7d]".toList (.table []) "]".toList := ⟨_, .refl _, .emptyObject (.refl _)⟩
  have parsed : parseJson "[\x7b\x7d]".toList = .ok (.array [.table []]) :=
    parseJson_iff.mpr ⟨[], ⟨_, .refl _, .array (.last object (.refl _))⟩, .refl _⟩
  exact (validateJsonArgsBlob_exact (by decide)).2 _ parsed

end Bitty.Config
