import Bitty.Library.Passes
import Bitty.Term.Kitty.Placement

/-! Playback of the frames of an image. -/

namespace Bitty.Term

open Passes

def KITTY_ANIM_MAX_FRAMES : Nat := 256

def KITTY_ANIM_TICK_QUANTUM_MS : Nat := 33

inductive KittyFrameError
  | tooManyFrames | noSuchFrame

namespace KittyAnimation

def new : KittyAnimation := ⟨[0], 1, .stopped, 0, 0⟩

def frameCount (a : KittyAnimation) : Nat := a.gaps.length

def durationMs (a : KittyAnimation) : Nat := a.gaps.sum

def pushFrame (gapMs : Nat) (a : KittyAnimation) : Except KittyFrameError (KittyAnimation × Nat) :=
  if KITTY_ANIM_MAX_FRAMES ≤ a.gaps.length then .error .tooManyFrames
  else .ok ({ a with gaps := a.gaps ++ [gapMs] }, a.gaps.length + 1)

def setGap (n gapMs : Nat) (a : KittyAnimation) : Except KittyFrameError KittyAnimation :=
  if n = 0 || a.gaps.length < n then .error .noSuchFrame else .ok { a with gaps := a.gaps.set (n - 1) gapMs }

def setCurrent (n : Nat) (a : KittyAnimation) : Except KittyFrameError KittyAnimation :=
  if n = 0 || a.frameCount < n then .error .noSuchFrame else .ok { a with current := n }

def setState (state : KittyAnimState) (a : KittyAnimation) : KittyAnimation :=
  let a := { a with state }
  if state = .stopped then { a with loopsDone := 0 } else a

def setLoops (v : Nat) (a : KittyAnimation) : KittyAnimation × Bool :=
  if v = 0 then (a, false) else ({ a with maxLoops := v - 1 }, true)

def step (index total : Nat) : Nat := if total ≤ index + 1 then 0 else index + 1

/-- Whether the loop budget is exhausted; then playback has stopped. -/
def onWrap (a : KittyAnimation) : KittyAnimation × Bool :=
  let a := { a with loopsDone := saturatingAdd32 a.loopsDone 1 }
  if 0 < a.maxLoops && a.maxLoops ≤ a.loopsDone then ({ a with state := .stopped, loopsDone := 0 }, true)
  else (a, false)

/-- The variables of the playback loop; the steps are the timed transitions, and the wraps are counted for the results
only. -/
structure Playback where
  anim : KittyAnimation
  index : Nat
  remaining : Nat
  steps : Nat
  wraps : Nat

def Playback.wrap (s : Playback) : Pass Playback :=
  let (anim, exhausted) := s.anim.onWrap
  let s := { s with anim, index := 0, wraps := s.wraps + 1 }
  if exhausted then .leave s else .next s

/-- One pass of the playback loop, with a display time for each frame and the most timed transitions. -/
def playbackPass (times : List Nat) (maxSteps : Option Nat) (s : Playback) : Pass Playback :=
  let gap := times.getD s.index 0
  let next := step s.index s.anim.gaps.length
  if gap = 0 then
    if next = 0 then s.wrap else .next { s with index := next }
  else if maxSteps.any (· ≤ s.steps) || s.remaining < gap then .leave s
  else
    let s := { s with remaining := s.remaining - gap, steps := s.steps + 1 }
    if next = 0 then
      if s.anim.state = .loading then .leave s else s.wrap
    else .next { s with index := next }

/-- The loop by which playback takes `elapsed` milliseconds; the fuel suffices. -/
def playback (times : List Nat) (maxSteps : Option Nat) (elapsed : Nat) (a : KittyAnimation) : Option Playback :=
  run (playbackPass times maxSteps) ((elapsed + 1) * a.gaps.length) ⟨a, a.current - 1, elapsed, 0, 0⟩

def idle (a : KittyAnimation) : Bool := a.state = .stopped || a.gaps.length < 2 || a.durationMs = 0

def Playback.settle (s : Playback) : KittyAnimation × Option Nat :=
  let next := s.index + 1
  if next = s.anim.current then (s.anim, none) else ({ s.anim with current := next }, some next)

def advance (elapsed : Nat) (a : KittyAnimation) : Option (KittyAnimation × Option Nat) :=
  if a.idle then some (a, none) else (playback a.gaps none elapsed a).map (·.settle)

def effective (gap : Nat) : Nat := if gap = 0 then 0 else max gap KITTY_ANIM_TICK_QUANTUM_MS

def advanceBounded (elapsed maxSteps : Nat) (a : KittyAnimation) : Option (KittyAnimation × Option Nat) :=
  if a.idle then some (a, none) else (playback (a.gaps.map effective) (some maxSteps) elapsed a).map (·.settle)

/-- The current frame is one of the frames, and the loop budget is a number of 32 bits. -/
structure Valid (a : KittyAnimation) : Prop where
  positive : 0 < a.current
  bound : a.current ≤ a.gaps.length
  loops : a.maxLoops < 2 ^ 32

theorem valid_new : new.Valid := ⟨by decide, by decide, by decide⟩

section

variable {a a' : KittyAnimation}

theorem Valid.pushFrame {gapMs n : Nat} (valid : a.Valid) (pushed : a.pushFrame gapMs = .ok (a', n)) : a'.Valid := by
  unfold KittyAnimation.pushFrame at pushed
  split at pushed
  · cases pushed
  · cases pushed
    refine ⟨valid.positive, ?_, valid.loops⟩
    have bound := valid.bound
    simp only [List.length_append, List.length_singleton]
    omega

theorem Valid.setGap {n gapMs : Nat} (valid : a.Valid) (changed : a.setGap n gapMs = .ok a') : a'.Valid := by
  unfold KittyAnimation.setGap at changed
  split at changed
  · cases changed
  · cases changed
    exact ⟨valid.positive, by simpa only [List.length_set] using valid.bound, valid.loops⟩

theorem Valid.setCurrent {n : Nat} (valid : a.Valid) (changed : a.setCurrent n = .ok a') : a'.Valid := by
  unfold KittyAnimation.setCurrent at changed
  split at changed
  · cases changed
  next inside =>
    cases changed
    rw [Bool.or_eq_true, decide_eq_true_iff, decide_eq_true_iff] at inside
    unfold frameCount at inside
    exact ⟨by show 0 < n; omega, by show n ≤ a.gaps.length; omega, valid.loops⟩

theorem Valid.setState (valid : a.Valid) (state : KittyAnimState) : (a.setState state).Valid := by
  unfold KittyAnimation.setState
  dsimp only
  split <;> exact ⟨valid.positive, valid.bound, valid.loops⟩

theorem Valid.setLoops {v : Nat} (valid : a.Valid) (bits : v < 2 ^ 32) : (a.setLoops v).1.Valid := by
  unfold KittyAnimation.setLoops
  split
  · exact valid
  · exact ⟨valid.positive, valid.bound, by show v - 1 < 2 ^ 32; omega⟩

end

variable {times : List Nat} {maxSteps : Option Nat} {a : KittyAnimation} {s t : Playback}

/-- A table of display times: a frame is shown for some time unless it is gapless. -/
structure Table (times gaps : List Nat) : Prop where
  length : times.length = gaps.length
  zero : ∀ i, times.getD i 0 = 0 ↔ gaps.getD i 0 = 0

theorem Table.refl (gaps : List Nat) : Table gaps gaps := ⟨rfl, fun _ => Iff.rfl⟩

theorem effective_eq_zero {gap : Nat} : effective gap = 0 ↔ gap = 0 := by
  unfold effective KITTY_ANIM_TICK_QUANTUM_MS
  split <;> omega

theorem Table.effective (gaps : List Nat) : Table (gaps.map effective) gaps where
  length := List.length_map _
  zero i := by
    rw [List.getD_eq_getElem?_getD, List.getD_eq_getElem?_getD, List.getElem?_map]
    cases gaps[i]? with
    | none => exact Iff.rfl
    | some gap => exact effective_eq_zero

/-- What playback keeps: its frame is one of the frames, and nothing of the animation changes but its loops. -/
structure Playing (a : KittyAnimation) (s : Playback) : Prop where
  gaps : s.anim.gaps = a.gaps
  current : s.anim.current = a.current
  maxLoops : s.anim.maxLoops = a.maxLoops
  index : s.index < a.gaps.length

/-- The second state is the first one after its frame was shown for its time. -/
structure Shown (times : List Nat) (maxSteps : Option Nat) (s u : Playback) : Prop where
  anim : u.anim = s.anim
  wraps : u.wraps = s.wraps
  remaining : u.remaining + times.getD s.index 0 = s.remaining
  steps : u.steps = s.steps + if times.getD s.index 0 = 0 then 0 else 1
  allowed : times.getD s.index 0 ≠ 0 → ∀ m ∈ maxSteps, s.steps < m

/-- A pass leaves where the time or the steps run out; else it shows the frame and goes to the next one, or parks on the
last one, or wraps. -/
theorem playbackPass_cases (times : List Nat) (maxSteps : Option Nat) (playing : Playing a s) :
    (times.getD s.index 0 ≠ 0 ∧ (s.remaining < times.getD s.index 0 ∨ ∃ m ∈ maxSteps, m ≤ s.steps) ∧
      playbackPass times maxSteps s = .leave s) ∨
    ∃ u, Shown times maxSteps s u ∧
      ((s.index + 1 < a.gaps.length ∧ u.index = s.index + 1 ∧ playbackPass times maxSteps s = .next u) ∨
      (s.index + 1 = a.gaps.length ∧ s.anim.state = .loading ∧ times.getD s.index 0 ≠ 0 ∧ u.index = s.index ∧
        playbackPass times maxSteps s = .leave u) ∨
      (s.index + 1 = a.gaps.length ∧ (s.anim.state = .loading → times.getD s.index 0 = 0) ∧
        playbackPass times maxSteps s = u.wrap)) := by
  have inside := playing.index
  unfold playbackPass step
  rw [playing.gaps]
  dsimp only
  by_cases free : times.getD s.index 0 = 0
  · have shown : ∀ u : Playback, u = { s with index := u.index } → Shown times maxSteps s u := by
      intro u same
      rw [same]
      exact ⟨rfl, rfl, by show s.remaining + _ = _; omega, by rw [if_pos free]; rfl, fun timed => absurd free timed⟩
    rw [if_pos free]
    refine Or.inr ?_
    by_cases last : a.gaps.length ≤ s.index + 1
    · rw [if_pos last, if_pos rfl]
      exact ⟨s, shown s rfl, Or.inr (Or.inr ⟨by omega, fun _ => free, rfl⟩)⟩
    · rw [if_neg last, if_neg (Nat.succ_ne_zero _)]
      exact ⟨{ s with index := s.index + 1 }, shown _ rfl, Or.inl ⟨by omega, rfl, rfl⟩⟩
  · rw [if_neg free]
    by_cases out : (maxSteps.any (· ≤ s.steps) || s.remaining < times.getD s.index 0) = true
    · rw [if_pos out]
      rw [Bool.or_eq_true, decide_eq_true_iff, Option.any_eq_true] at out
      refine Or.inl ⟨free, ?_, rfl⟩
      rcases out with ⟨m, member, spent⟩ | short
      · exact Or.inr ⟨m, member, of_decide_eq_true spent⟩
      · exact Or.inl short
    · rw [if_neg out]
      rw [Bool.or_eq_true, decide_eq_true_iff, Option.any_eq_true, not_or] at out
      have shown : ∀ u : Playback, u = { s with
          remaining := s.remaining - times.getD s.index 0, steps := s.steps + 1, index := u.index } →
          Shown times maxSteps s u := by
        intro u same
        rw [same]
        exact ⟨rfl, rfl, by show s.remaining - _ + _ = _; omega, by rw [if_neg free], fun _ m member =>
          Nat.lt_of_not_le fun spent => out.1 ⟨m, member, decide_eq_true spent⟩⟩
      refine Or.inr ?_
      by_cases last : a.gaps.length ≤ s.index + 1
      · rw [if_pos last, if_pos rfl]
        refine ⟨{ s with remaining := s.remaining - times.getD s.index 0, steps := s.steps + 1 }, shown _ rfl,
          Or.inr ?_⟩
        by_cases loading : s.anim.state = .loading
        · rw [if_pos loading]
          exact Or.inl ⟨by omega, loading, free, rfl, rfl⟩
        · rw [if_neg loading]
          exact Or.inr ⟨by omega, fun loads => absurd loads loading, rfl⟩
      · rw [if_neg last, if_neg (Nat.succ_ne_zero _)]
        exact ⟨_, shown { s with
          remaining := s.remaining - times.getD s.index 0, steps := s.steps + 1, index := s.index + 1 } rfl,
          Or.inl ⟨by omega, rfl, rfl⟩⟩

theorem wrap_cases (u : Playback) :
    (0 < u.anim.maxLoops ∧ u.anim.maxLoops ≤ saturatingAdd32 u.anim.loopsDone 1 ∧
      u.wrap = .leave ⟨{ u.anim with state := .stopped, loopsDone := 0 }, 0, u.remaining, u.steps, u.wraps + 1⟩) ∨
    ((u.anim.maxLoops = 0 ∨ saturatingAdd32 u.anim.loopsDone 1 < u.anim.maxLoops) ∧
      u.wrap = .next ⟨{ u.anim with loopsDone := saturatingAdd32 u.anim.loopsDone 1 }, 0, u.remaining, u.steps,
        u.wraps + 1⟩) := by
  unfold Playback.wrap onWrap
  dsimp only
  by_cases exhausted : (0 < u.anim.maxLoops && u.anim.maxLoops ≤ saturatingAdd32 u.anim.loopsDone 1) = true
  · rw [if_pos exhausted]
    rw [Bool.and_eq_true, decide_eq_true_iff, decide_eq_true_iff] at exhausted
    exact Or.inl ⟨exhausted.1, exhausted.2, rfl⟩
  · rw [if_neg exhausted]
    rw [Bool.and_eq_true, decide_eq_true_iff, decide_eq_true_iff] at exhausted
    exact Or.inr ⟨by omega, rfl⟩

theorem Playing.pass (times : List Nat) (maxSteps : Option Nat) (playing : Playing a s) :
    Playing a (playbackPass times maxSteps s).state := by
  have inside := playing.index
  rcases playbackPass_cases times maxSteps playing with ⟨_, _, pass⟩ |
    ⟨u, shown, ⟨before, index, pass⟩ | ⟨_, _, _, index, pass⟩ |
    ⟨_, _, pass⟩⟩
  · rw [pass]
    exact playing
  · rw [pass]
    exact ⟨shown.anim ▸ playing.gaps, shown.anim ▸ playing.current, shown.anim ▸ playing.maxLoops, by
      show u.index < _; omega⟩
  · rw [pass]
    exact ⟨shown.anim ▸ playing.gaps, shown.anim ▸ playing.current, shown.anim ▸ playing.maxLoops, by
      show u.index < _; omega⟩
  · rw [pass]
    rcases wrap_cases u with ⟨_, _, wrap⟩ | ⟨_, wrap⟩
    · rw [wrap]
      exact ⟨shown.anim ▸ playing.gaps, shown.anim ▸ playing.current, shown.anim ▸ playing.maxLoops, by
        show 0 < _; omega⟩
    · rw [wrap]
      exact ⟨shown.anim ▸ playing.gaps, shown.anim ▸ playing.current, shown.anim ▸ playing.maxLoops, by
        show 0 < _; omega⟩

theorem Playing.next (playing : Playing a s) (pass : playbackPass times maxSteps s = .next t) : Playing a t := by
  have playing' := playing.pass times maxSteps
  rwa [pass] at playing'

def start (elapsed : Nat) (a : KittyAnimation) : Playback := ⟨a, a.current - 1, elapsed, 0, 0⟩

theorem Valid.playing (valid : a.Valid) (elapsed : Nat) : Playing a (start elapsed a) := by
  have positive := valid.positive
  have bound := valid.bound
  exact ⟨rfl, rfl, rfl, by show a.current - 1 < _; omega⟩

def skips (times : List Nat) (i : Nat) : Nat := (times.drop i ++ times).findIdx (· ≠ 0)

theorem skips_lt (some : ∃ time ∈ times, time ≠ 0) (i : Nat) : skips times i < times.length := by
  obtain ⟨time, member, timed⟩ := some
  obtain ⟨j, bound, eq⟩ := List.mem_iff_getElem.mp member
  have reach : ∀ k (inside : k < (times.drop i ++ times).length), (times.drop i ++ times)[k] ≠ 0 →
      skips times i ≤ k := by
    intro k inside timed
    refine Nat.le_of_not_lt fun before => ?_
    have free := List.not_of_lt_findIdx before
    exact timed (by simpa using free)
  by_cases ahead : i ≤ j
  · have inside : j - i < (times.drop i).length := by
      rw [List.length_drop]
      omega
    have first := reach (j - i) (by rw [List.length_append]; omega) (by
      rw [List.getElem_append_left inside, List.getElem_drop]
      simp only [show i + (j - i) = j by omega, eq]
      exact timed)
    omega
  · have past : (times.drop i).length ≤ (times.drop i).length + j := Nat.le_add_right _ _
    have first := reach ((times.drop i).length + j) (by rw [List.length_append]; omega) (by
      rw [List.getElem_append_right past]
      simp only [Nat.add_sub_cancel_left, eq]
      exact timed)
    rw [List.length_drop] at first
    omega

theorem skips_succ {i : Nat} (free : times.getD i 0 = 0) (inside : i < times.length) :
    skips times i = skips times (i + 1) + 1 := by
  have head : times[i] = 0 := by rwa [List.getD_eq_getElem?_getD, List.getElem?_eq_getElem inside] at free
  rw [skips, List.drop_eq_getElem_cons inside, head, List.cons_append, List.findIdx_cons]
  rfl

theorem skips_zero (some : ∃ time ∈ times, time ≠ 0) : skips times 0 = skips times times.length := by
  rw [skips, skips, List.drop_zero, List.drop_length, List.nil_append, List.findIdx_append, if_pos]
  exact List.findIdx_lt_length_of_exists (by simpa using some)

theorem exists_playback (maxSteps : Option Nat) (elapsed : Nat) (table : Table times a.gaps) (valid : a.Valid)
    (timed : a.durationMs ≠ 0) :
    ∃ s, playback times maxSteps elapsed a = some s := by
  have some : ∃ time ∈ times, time ≠ 0 := by
    by_contra none
    push Not at none
    refine timed (List.sum_eq_zero_iff_forall_eq_nat.mpr fun gap member => ?_)
    obtain ⟨i, bound, eq⟩ := List.mem_iff_getElem.mp member
    have free := (table.zero i).mp (by
      rw [List.getD_eq_getElem?_getD, List.getElem?_eq_getElem (by rw [table.length]; exact bound)]
      exact none _ (List.getElem_mem _))
    rwa [List.getD_eq_getElem?_getD, List.getElem?_eq_getElem bound, Option.getD_some, eq] at free
  have size := table.length
  have keeps : ∀ s t, Playing a s → playbackPass times maxSteps s = .next t → Playing a t ∧
      t.remaining * a.gaps.length + skips times t.index < s.remaining * a.gaps.length + skips times s.index := by
    intro s t playing next
    refine ⟨playing.next next, ?_⟩
    have inside := playing.index
    have short := skips_lt some
    rcases playbackPass_cases times maxSteps playing with ⟨_, _, pass⟩ |
    ⟨u, shown, ⟨before, index, pass⟩ | ⟨_, _, _, index, pass⟩ |
      ⟨last, _, pass⟩⟩
    all_goals rw [pass] at next
    · cases next
    · cases next
      have spent := shown.remaining
      by_cases free : times.getD s.index 0 = 0
      · have less := skips_succ free (by omega)
        have same : t.remaining = s.remaining := by omega
        rw [index, same]
        omega
      · have less := Nat.mul_le_mul_right a.gaps.length (by omega : t.remaining + 1 ≤ s.remaining)
        rw [Nat.add_mul] at less
        have bound := short t.index
        omega
    · cases next
    · have spent := shown.remaining
      have at_root : t.index = 0 ∧ t.remaining = u.remaining := by
        rcases wrap_cases u with ⟨_, _, wrap⟩ | ⟨_, wrap⟩
        · rw [wrap] at next
          cases next
        · rw [wrap] at next
          cases next
          exact ⟨rfl, rfl⟩
      rw [at_root.1, at_root.2]
      by_cases free : times.getD s.index 0 = 0
      · have less := skips_succ free (by omega)
        have around := skips_zero some
        have same : u.remaining = s.remaining := by omega
        rw [same, around, size, ← last]
        omega
      · have less := Nat.mul_le_mul_right a.gaps.length (by omega : u.remaining + 1 ≤ s.remaining)
        rw [Nat.add_mul] at less
        have bound := short 0
        omega
  refine exists_run (fun s => s.remaining * a.gaps.length + skips times s.index) keeps (valid.playing elapsed) ?_
  show elapsed * a.gaps.length + skips times (a.current - 1) < (elapsed + 1) * a.gaps.length
  have bound := skips_lt some (a.current - 1)
  rw [Nat.add_mul]
  omega

def left (a : KittyAnimation) : Nat := if a.state = .stopped then 0 else max 1 (a.maxLoops - a.loopsDone)

structure Budgeted (a : KittyAnimation) (s : Playback) : Prop where
  playing : Playing a s
  wraps : 0 < a.maxLoops → s.wraps + s.anim.left ≤ a.left
  state : s.anim.state = a.state ∨ s.anim.state = .stopped ∧ s.index = 0

theorem Budgeted.wrap {u : Playback} (valid : a.Valid) (runs : a.state ≠ .stopped) (playing : Playing a u)
    (wraps : 0 < a.maxLoops → u.wraps + u.anim.left ≤ a.left) (state : u.anim.state = a.state) :
    Budgeted a u.wrap.state := by
  have loops := valid.loops
  have same := playing.maxLoops
  have goes : ¬u.anim.state = .stopped := by rwa [state]
  have before : u.anim.left = max 1 (a.maxLoops - u.anim.loopsDone) := by rw [left, if_neg goes, same]
  rcases wrap_cases u with ⟨some, spent, wrap⟩ | ⟨unspent, wrap⟩
  · rw [wrap]
    refine ⟨⟨playing.gaps, playing.current, playing.maxLoops, ?_⟩, fun budget => ?_, Or.inr ⟨rfl, rfl⟩⟩
    · exact Nat.lt_of_le_of_lt (Nat.zero_le _) playing.index
    · have kept := wraps budget
      have none : left { u.anim with state := .stopped, loopsDone := 0 } = 0 := if_pos rfl
      show u.wraps + 1 + left { u.anim with state := .stopped, loopsDone := 0 } ≤ a.left
      rw [none]
      omega
  · rw [wrap]
    refine ⟨⟨playing.gaps, playing.current, playing.maxLoops, ?_⟩, fun budget => ?_, Or.inl state⟩
    · exact Nat.lt_of_le_of_lt (Nat.zero_le _) playing.index
    · have kept := wraps budget
      have after : left { u.anim with loopsDone := saturatingAdd32 u.anim.loopsDone 1 } =
          max 1 (a.maxLoops - saturatingAdd32 u.anim.loopsDone 1) := by rw [left, if_neg goes, ← same]
      have counted : saturatingAdd32 u.anim.loopsDone 1 = min (u.anim.loopsDone + 1) (2 ^ 32 - 1) := rfl
      show u.wraps + 1 + left { u.anim with loopsDone := saturatingAdd32 u.anim.loopsDone 1 } ≤ a.left
      rw [after]
      omega

theorem Budgeted.pass (times : List Nat) (maxSteps : Option Nat) (valid : a.Valid) (runs : a.state ≠ .stopped)
    (budgeted : Budgeted a s) (state : s.anim.state = a.state) :
    Budgeted a (playbackPass times maxSteps s).state ∧
    (∀ t, playbackPass times maxSteps s = .next t → t.anim.state = a.state) ∧
    ∀ t, playbackPass times maxSteps s = .leave t → t.anim.state = .stopped ∨ times.getD t.index 0 ≠ 0 := by
  have playing := budgeted.playing
  have playing' := playing.pass times maxSteps
  rcases playbackPass_cases times maxSteps playing with ⟨timed, _, pass⟩ | ⟨u, shown, ⟨before, index, pass⟩ |
    ⟨_, _, timed, index, pass⟩ | ⟨_, _, pass⟩⟩
  · rw [pass]
    refine ⟨budgeted, nofun, ?_⟩
    rintro t ⟨⟩
    exact Or.inr timed
  · rw [pass] at playing' ⊢
    refine ⟨⟨playing', ?_, Or.inl (shown.anim ▸ state)⟩, ?_, nofun⟩
    · show 0 < a.maxLoops → u.wraps + u.anim.left ≤ a.left
      rw [shown.wraps, shown.anim]
      exact budgeted.wraps
    · rintro t ⟨⟩
      rw [shown.anim, state]
  · rw [pass] at playing' ⊢
    refine ⟨⟨playing', ?_, Or.inl (shown.anim ▸ state)⟩, nofun, ?_⟩
    · show 0 < a.maxLoops → u.wraps + u.anim.left ≤ a.left
      rw [shown.wraps, shown.anim]
      exact budgeted.wraps
    · rintro t ⟨⟩
      rw [index]
      exact Or.inr timed
  · have wrapped := Budgeted.wrap (u := { u with index := s.index }) valid runs
      ⟨shown.anim ▸ playing.gaps, shown.anim ▸ playing.current, shown.anim ▸ playing.maxLoops, playing.index⟩
      (by
        show 0 < a.maxLoops → u.wraps + u.anim.left ≤ a.left
        rw [shown.wraps, shown.anim]
        exact budgeted.wraps)
      (by show u.anim.state = _; rw [shown.anim, state])
    have same : ({ u with index := s.index } : Playback).wrap = u.wrap := rfl
    rw [pass]
    rw [same] at wrapped
    refine ⟨wrapped, ?_, ?_⟩
    · intro t next
      rcases wrap_cases u with ⟨_, _, wrap⟩ | ⟨_, wrap⟩
      · rw [wrap] at next
        cases next
      · rw [wrap] at next
        cases next
        show u.anim.state = _
        rw [shown.anim, state]
    · intro t leave
      rcases wrap_cases u with ⟨_, _, wrap⟩ | ⟨_, wrap⟩
      · rw [wrap] at leave
        cases leave
        exact Or.inl rfl
      · rw [wrap] at leave
        cases leave

theorem playback_leaves {elapsed : Nat} (valid : a.Valid) (runs : a.state ≠ .stopped)
    (plays : playback times maxSteps elapsed a = some t) :
    Budgeted a t ∧ (t.anim.state = .stopped ∨ times.getD t.index 0 ≠ 0) := by
  have first : Budgeted a (start elapsed a) := by
    refine ⟨valid.playing elapsed, fun _ => ?_, Or.inl rfl⟩
    show 0 + a.left ≤ a.left
    omega
  refine @run_keeps _ _ _ _ _ (fun s => Budgeted a s ∧ s.anim.state = a.state)
    (fun t => Budgeted a t ∧ (t.anim.state = .stopped ∨ times.getD t.index 0 ≠ 0)) ?_ ?_ ⟨first, rfl⟩ plays
  · intro s t ⟨budgeted, state⟩ next
    obtain ⟨kept, goes, _⟩ := budgeted.pass times maxSteps valid runs state
    rw [next] at kept
    exact ⟨kept, goes t next⟩
  · intro s t ⟨budgeted, state⟩ leave
    obtain ⟨kept, _, ends⟩ := budgeted.pass times maxSteps valid runs state
    rw [leave] at kept
    exact ⟨kept, ends t leave⟩

theorem settle_fst (s : Playback) : s.settle.1 = { s.anim with current := s.index + 1 } := by
  unfold Playback.settle
  dsimp only
  split
  next same => rw [same]
  next => rfl

def rest (times : List Nat) (i : Nat) : Nat := (times.drop i).sum

def timedFrom (times : List Nat) (i : Nat) : Nat := (times.drop i).countP (· ≠ 0)

theorem rest_succ {i : Nat} (inside : i < times.length) : rest times i = times.getD i 0 + rest times (i + 1) := by
  rw [rest, rest, List.drop_eq_getElem_cons inside, List.sum_cons, List.getD_eq_getElem?_getD,
    List.getElem?_eq_getElem inside, Option.getD_some]

theorem timedFrom_succ {i : Nat} (inside : i < times.length) :
    timedFrom times i = (if times.getD i 0 = 0 then 0 else 1) + timedFrom times (i + 1) := by
  rw [timedFrom, timedFrom, List.drop_eq_getElem_cons inside, List.countP_cons, List.getD_eq_getElem?_getD,
    List.getElem?_eq_getElem inside, Option.getD_some, Nat.add_comm]
  by_cases free : times[i] = 0
  · simp [free]
  · simp [free]

/-- Every pass of the loop stays on its frame or goes to a later one: playback does not wrap. -/
def Forward (times : List Nat) (maxSteps : Option Nat) (elapsed : Nat) (a : KittyAnimation) : Prop :=
  ∀ s, Visits (playbackPass times maxSteps) (start elapsed a) s →
    s.index ≤ (playbackPass times maxSteps s).state.index

/-- Playback comes to an end before it could pass the last frame. -/
structure Ahead (times : List Nat) (maxSteps : Option Nat) (a : KittyAnimation) (s : Playback) : Prop where
  playing : Playing a s
  loading : s.anim.state = .loading
  steps : ∀ m ∈ maxSteps, s.steps ≤ m
  parks : times.getD (a.gaps.length - 1) 0 ≠ 0 ∨ s.remaining < rest times s.index ∨
    ∃ m ∈ maxSteps, m < s.steps + timedFrom times s.index

theorem Ahead.pass (size : times.length = a.gaps.length) (ahead : Ahead times maxSteps a s) :
    s.index ≤ (playbackPass times maxSteps s).state.index ∧
    ∀ t, playbackPass times maxSteps s = .next t → Ahead times maxSteps a t := by
  obtain ⟨playing, loading, steps, parks⟩ := ahead
  have playing' := playing.pass times maxSteps
  have inside : s.index < times.length := size ▸ playing.index
  have restEq := rest_succ inside
  have timedEq := timedFrom_succ inside
  rcases playbackPass_cases times maxSteps playing with ⟨_, _, pass⟩ |
    ⟨u, shown, ⟨before, index, pass⟩ | ⟨_, _, _, index, pass⟩ |
    ⟨last, free, _⟩⟩
  · rw [pass]
    exact ⟨Nat.le_refl _, nofun⟩
  · rw [pass] at playing' ⊢
    refine ⟨by show s.index ≤ u.index; omega, ?_⟩
    rintro t ⟨⟩
    have spent := shown.remaining
    have counted := shown.steps
    refine ⟨playing', shown.anim ▸ loading, fun m member => ?_, ?_⟩
    · by_cases free : times.getD s.index 0 = 0
      · rw [counted, if_pos free]
        exact steps m member
      · have allowed := shown.allowed free m member
        rw [counted, if_neg free]
        omega
    · rw [index]
      rcases parks with held | short | ⟨m, member, spentSteps⟩
      · exact Or.inl held
      · exact Or.inr (Or.inl (by omega))
      · exact Or.inr (Or.inr ⟨m, member, by omega⟩)
  · rw [pass]
    exact ⟨by show s.index ≤ u.index; omega, nofun⟩
  · exfalso
    have gapless := free loading
    have none : rest times (s.index + 1) = 0 ∧ timedFrom times (s.index + 1) = 0 := by
      rw [rest, timedFrom, List.drop_eq_nil_of_le (by omega)]
      exact ⟨rfl, rfl⟩
    rw [if_pos gapless] at timedEq
    rcases parks with held | short | ⟨m, member, spentSteps⟩
    · rw [← last, Nat.add_sub_cancel] at held
      exact held gapless
    · omega
    · have bound := steps m member
      omega

theorem exists_wrap (size : times.length = a.gaps.length) (many : 2 ≤ a.gaps.length) (playing : Playing a s)
    (gapless : times.getD (a.gaps.length - 1) 0 = 0) (time : rest times s.index ≤ s.remaining)
    (steps : ∀ m ∈ maxSteps, s.steps + timedFrom times s.index ≤ m) :
    ∃ t, Visits (playbackPass times maxSteps) s t ∧ (playbackPass times maxSteps t).state.index < t.index := by
  induction distance : a.gaps.length - s.index generalizing s with
  | zero =>
    have inside := playing.index
    omega
  | succ distance ih =>
    have inside : s.index < times.length := size ▸ playing.index
    have restEq := rest_succ inside
    have timedEq := timedFrom_succ inside
    rcases playbackPass_cases times maxSteps playing with ⟨timed, out, _⟩ | ⟨u, shown, ⟨before, index, pass⟩ |
      ⟨last, _, timed, _, _⟩ | ⟨last, _, pass⟩⟩
    · rcases out with short | ⟨m, member, spent⟩
      · omega
      · have bound := steps m member
        rw [if_neg timed] at timedEq
        omega
    · have spent := shown.remaining
      have counted := shown.steps
      have steps' : ∀ m ∈ maxSteps, u.steps + timedFrom times u.index ≤ m := by
        intro m member
        have bound := steps m member
        rw [index]
        omega
      obtain ⟨t, visits, back⟩ := ih (playing.next pass) (by rw [index]; omega) steps' (by omega)
      exact ⟨t, .next pass visits, back⟩
    · rw [← last, Nat.add_sub_cancel] at gapless
      exact absurd gapless timed
    · refine ⟨s, .here s, ?_⟩
      rw [pass]
      rcases wrap_cases u with ⟨_, _, wrap⟩ | ⟨_, wrap⟩
      · rw [wrap]
        show 0 < s.index
        omega
      · rw [wrap]
        show 0 < s.index
        omega

theorem forward_iff {elapsed : Nat} (table : Table times a.gaps) (valid : a.Valid) (many : 2 ≤ a.gaps.length)
    (loading : a.state = .loading) : Forward times maxSteps elapsed a ↔
      a.gaps.getD (a.gaps.length - 1) 0 ≠ 0 ∨ elapsed < rest times (a.current - 1) ∨
        ∃ m ∈ maxSteps, m < timedFrom times (a.current - 1) := by
  have playing := valid.playing elapsed
  constructor
  · intro forward
    by_contra reached
    rw [not_or, not_or, Decidable.not_not] at reached
    obtain ⟨gapless, time, steps⟩ := reached
    have steps' : ∀ m ∈ maxSteps, (start elapsed a).steps + timedFrom times (start elapsed a).index ≤ m := by
      intro m member
      show 0 + timedFrom times (a.current - 1) ≤ m
      have bound : ¬m < timedFrom times (a.current - 1) := fun spent => steps ⟨m, member, spent⟩
      omega
    obtain ⟨t, visits, back⟩ := exists_wrap table.length many playing ((table.zero _).mpr gapless)
      (Nat.le_of_not_lt time) steps'
    have ahead := forward t visits
    omega
  · intro condition s visits
    have first : Ahead times maxSteps a (start elapsed a) := by
      refine ⟨playing, loading, fun m _ => Nat.zero_le m, ?_⟩
      rcases condition with held | short | ⟨m, member, spent⟩
      · exact Or.inl fun free => held ((table.zero _).mp free)
      · exact Or.inr (Or.inl short)
      · refine Or.inr (Or.inr ⟨m, member, ?_⟩)
        show m < 0 + timedFrom times (a.current - 1)
        omega
    have keeps : ∀ s t, Ahead times maxSteps a s → playbackPass times maxSteps s = .next t → Ahead times maxSteps a t :=
      fun s t ahead => (ahead.pass table.length).2 t
    exact ((visits_keeps keeps first visits).pass table.length).1

theorem map_effective {gaps : List Nat} (quantum : ∀ gap ∈ gaps, gap = 0 ∨ KITTY_ANIM_TICK_QUANTUM_MS ≤ gap) :
    gaps.map effective = gaps := by
  refine (List.map_congr_left fun gap member => ?_).trans (List.map_id gaps)
  show effective gap = gap
  have least := quantum gap member
  unfold effective KITTY_ANIM_TICK_QUANTUM_MS at *
  split <;> omega

theorem wrap_steps (u : Playback) : u.wrap.state.steps = u.steps := by
  rcases wrap_cases u with ⟨_, _, wrap⟩ | ⟨_, wrap⟩ <;> rw [wrap] <;> rfl

theorem unbounded_steps (times : List Nat) (s : Playback) : (playbackPass times none s).state.steps =
    s.steps + if times.getD s.index 0 = 0 ∨ s.remaining < times.getD s.index 0 then 0 else 1 := by
  unfold playbackPass
  dsimp only
  generalize times.getD s.index 0 = gap
  by_cases free : gap = 0
  · rw [if_pos free, if_pos (Or.inl free)]
    by_cases last : step s.index s.anim.gaps.length = 0
    · rw [if_pos last]
      exact wrap_steps s
    · rw [if_neg last]
      rfl
  · rw [if_neg free]
    by_cases short : s.remaining < gap
    · rw [if_pos (by simp [short]), if_pos (Or.inr short)]
      rfl
    · have goes : ¬((none : Option Nat).any (· ≤ s.steps) || decide (s.remaining < gap)) = true := by simp [short]
      rw [if_neg goes, if_neg (not_or.mpr ⟨free, short⟩)]
      by_cases last : step s.index s.anim.gaps.length = 0
      · rw [if_pos last]
        split
        · rfl
        · exact wrap_steps _
      · rw [if_neg last]
        rfl

theorem playback_bounded {elapsed m : Nat} (plays : playback times none elapsed a = some t) (enough : t.steps ≤ m) :
    playback times (some m) elapsed a = some t := by
  have back : ∀ s : Playback, (playbackPass times none s).state.steps ≤ m → s.steps ≤ m := by
    intro s bound
    rw [unbounded_steps] at bound
    omega
  have same : ∀ s : Playback, (playbackPass times none s).state.steps ≤ m →
      playbackPass times (some m) s = playbackPass times none s := by
    intro s bound
    rw [unbounded_steps] at bound
    unfold playbackPass
    dsimp only
    generalize times.getD s.index 0 = gap at bound ⊢
    by_cases free : gap = 0
    · rw [if_pos free, if_pos free]
    · rw [if_neg free, if_neg free]
      by_cases short : s.remaining < gap
      · rw [if_pos (by simp [short]), if_pos (by simp [short])]
      · rw [if_neg (by simp [free, short])] at bound
        have goes : ¬((some m).any (· ≤ s.steps) || decide (s.remaining < gap)) = true := by
          simp only [Option.any_some, Bool.or_eq_true, decide_eq_true_eq]
          omega
        have goes' : ¬((none : Option Nat).any (· ≤ s.steps) || decide (s.remaining < gap)) = true := by simp [short]
        rw [if_neg goes, if_neg goes']
  exact (@run_congr _ _ _ _ _ _ (fun s => s.steps ≤ m) back same plays enough).2

inductive Call
  | advance (elapsed : Nat)
  | advanceBounded (elapsed maxSteps : Nat)

def Call.playback (a : KittyAnimation) : Call → Option Playback
  | .advance elapsed => KittyAnimation.playback a.gaps none elapsed a
  | .advanceBounded elapsed maxSteps => KittyAnimation.playback (a.gaps.map effective) (some maxSteps) elapsed a

def Call.apply (a : KittyAnimation) : Call → Option (KittyAnimation × Option Nat)
  | .advance elapsed => a.advance elapsed
  | .advanceBounded elapsed maxSteps => a.advanceBounded elapsed maxSteps

theorem Call.apply_eq (a : KittyAnimation) (call : Call) :
    call.apply a = if a.idle then some (a, none) else (call.playback a).map (·.settle) := by
  cases call <;> rfl

def Call.wraps (a : KittyAnimation) (call : Call) : Nat := if a.idle then 0 else (call.playback a).elim 0 (·.wraps)

theorem not_idle (busy : a.idle = false) : a.state ≠ .stopped ∧ 2 ≤ a.gaps.length ∧ a.durationMs ≠ 0 := by
  unfold idle at busy
  rw [Bool.or_eq_false_iff, Bool.or_eq_false_iff, decide_eq_false_iff_not, decide_eq_false_iff_not,
    decide_eq_false_iff_not] at busy
  exact ⟨busy.1.1, by omega, busy.2⟩

/-- What a call comes to: it stays within the loop budget, stops playback on the root frame only, and else shows no
gapless frame. -/
structure Plays (a a' : KittyAnimation) (wraps : Nat) : Prop where
  valid : a'.Valid
  maxLoops : a'.maxLoops = a.maxLoops
  wraps : 0 < a.maxLoops → wraps + a'.left ≤ a.left
  stops : a'.state = a.state ∨ a'.state = .stopped ∧ a'.current = 1
  halted : a.state = .stopped → a' = a
  shown : a'.state = .stopped ∨ a'.durationMs = 0 ∨ a'.gaps.getD (a'.current - 1) 0 ≠ 0

theorem Valid.shown (valid : a.Valid) (busy : a.idle = true) :
    a.state = .stopped ∨ a.durationMs = 0 ∨ a.gaps.getD (a.current - 1) 0 ≠ 0 := by
  unfold idle at busy
  rw [Bool.or_eq_true, Bool.or_eq_true, decide_eq_true_iff, decide_eq_true_iff, decide_eq_true_iff] at busy
  rcases busy with (stopped | single) | none
  · exact Or.inl stopped
  · refine Or.inr ?_
    obtain ⟨positive, bound, _⟩ := valid
    unfold durationMs
    match gaps : a.gaps with
    | [] =>
      rw [gaps, List.length_nil] at bound
      omega
    | [gap] =>
      rw [gaps, List.length_singleton] at bound
      rw [show a.current - 1 = 0 by omega, List.sum_singleton, List.getD_cons_zero]
      omega
    | first :: second :: rest =>
      rw [gaps] at single
      simp only [List.length_cons] at single
      omega
  · exact Or.inr (Or.inl none)

theorem Call.playback_eq (a : KittyAnimation) (call : Call) : ∃ times maxSteps elapsed, Table times a.gaps ∧
    call.playback a = KittyAnimation.playback times maxSteps elapsed a := by
  cases call with
  | advance elapsed => exact ⟨a.gaps, none, elapsed, .refl _, rfl⟩
  | advanceBounded elapsed maxSteps => exact ⟨_, some maxSteps, elapsed, .effective _, rfl⟩

theorem Call.plays (valid : a.Valid) (call : Call) :
    ∃ a' shown, call.apply a = some (a', shown) ∧ Plays a a' (call.wraps a) := by
  rw [Call.apply_eq, Call.wraps]
  cases busy : a.idle with
  | true => exact ⟨a, none, rfl, valid, rfl, fun _ => Nat.le_of_eq (Nat.zero_add _), Or.inl rfl, fun _ => rfl,
      valid.shown busy⟩
  | false =>
    obtain ⟨runs, many, timed⟩ := not_idle busy
    obtain ⟨times, maxSteps, elapsed, table, same⟩ := call.playback_eq a
    obtain ⟨t, plays⟩ := exists_playback maxSteps elapsed table valid timed
    obtain ⟨⟨playing, wraps, state⟩, ends⟩ := playback_leaves valid runs plays
    have inside := playing.index
    rw [same, plays]
    refine ⟨t.settle.1, t.settle.2, rfl, ?_⟩
    rw [settle_fst]
    refine ⟨⟨Nat.succ_pos _, ?_, ?_⟩, playing.maxLoops, wraps, ?_, fun stopped => absurd stopped runs, ?_⟩
    · show t.index + 1 ≤ t.anim.gaps.length
      rw [playing.gaps]
      exact inside
    · show t.anim.maxLoops < _
      rw [playing.maxLoops]
      exact valid.loops
    · exact state.imp_right fun ⟨stopped, root⟩ => ⟨stopped, congrArg (· + 1) root⟩
    · refine ends.imp_right fun held => Or.inr ?_
      show t.anim.gaps.getD (t.index + 1 - 1) 0 ≠ 0
      rw [playing.gaps, Nat.add_sub_cancel]
      exact fun free => held ((table.zero _).mpr free)

theorem Plays.trans {a' a'' : KittyAnimation} {wraps wraps' : Nat} (first : Plays a a' wraps)
    (second : Plays a' a'' wraps') : Plays a a'' (wraps + wraps') where
  valid := second.valid
  maxLoops := second.maxLoops.trans first.maxLoops
  wraps budget := by
    have before := first.wraps budget
    have after := second.wraps (first.maxLoops ▸ budget)
    omega
  stops := by
    rcases first.stops with same | ⟨stopped, root⟩
    · rw [← same]
      exact second.stops
    · rw [second.halted stopped]
      exact Or.inr ⟨stopped, root⟩
  halted stopped := by
    obtain rfl := first.halted stopped
    exact second.halted stopped
  shown := second.shown

def calls : List Call → KittyAnimation → KittyAnimation × Nat
  | [], a => (a, 0)
  | call :: rest, a =>
    let later := calls rest ((call.apply a).elim a (·.1))
    (later.1, call.wraps a + later.2)

theorem plays_calls (valid : a.Valid) (rest : List Call) (some : rest ≠ []) :
    Plays a (calls rest a).1 (calls rest a).2 := by
  induction rest generalizing a with
  | nil => exact absurd rfl some
  | cons call rest ih =>
    obtain ⟨a', shown, applied, plays⟩ := call.plays valid
    rw [calls, applied, Option.elim_some]
    cases rest with
    | nil => exact plays
    | cons next more => exact plays.trans (ih plays.valid (List.cons_ne_nil _ _))

/-- While playback loads, no pass of the call goes back to an earlier frame. -/
def Call.NeverBack (a : KittyAnimation) (call : Call) : Prop :=
  a.state = .loading → a.idle = false →
    match call with
    | .advance elapsed => Forward a.gaps none elapsed a
    | .advanceBounded elapsed maxSteps => Forward (a.gaps.map effective) (some maxSteps) elapsed a

/-- Playback does not load, has nothing to do, has a last frame that is shown for some time, or does not come to the
last frame for want of time or steps. -/
def Call.Parks (a : KittyAnimation) (call : Call) : Prop :=
  a.state ≠ .loading ∨ a.idle = true ∨ a.gaps.getD (a.gaps.length - 1) 0 ≠ 0 ∨
    match call with
    | .advance elapsed => elapsed < rest a.gaps (a.current - 1)
    | .advanceBounded elapsed maxSteps =>
      elapsed < rest (a.gaps.map effective) (a.current - 1) ∨ maxSteps < timedFrom a.gaps (a.current - 1)

theorem timedFrom_effective (gaps : List Nat) (i : Nat) : timedFrom (gaps.map effective) i = timedFrom gaps i := by
  rw [timedFrom, timedFrom, ← List.map_drop, List.countP_map]
  refine congrArg (List.countP · _) (funext fun gap => ?_)
  simp only [Function.comp_apply, ne_eq, effective_eq_zero]

theorem Call.neverBack_iff (valid : a.Valid) (call : Call) : call.NeverBack a ↔ call.Parks a := by
  unfold Call.NeverBack Call.Parks
  by_cases loading : a.state = .loading
  · cases busy : a.idle with
    | true => simp
    | false =>
      obtain ⟨_, many, _⟩ := not_idle busy
      cases call with
      | advance elapsed =>
        simp only [loading, forward_iff (.refl _) valid many loading]
        simp
      | advanceBounded elapsed maxSteps =>
        simp only [loading, forward_iff (.effective _) valid many loading, timedFrom_effective]
        simp
  · simp [loading]

/-- Playback returns, keeps to the loop budget, shows no gapless frame unless it is stopped or without duration, and is
the same with a budget of steps that suffices where no gap is below the quantum. While it loads it never goes back if
and only if it parks. -/
theorem playback_sound_iff (valid : a.Valid) :
    (∀ call : Call, call.NeverBack a ↔ call.Parks a) ∧
    (∀ call : Call, ∃ a' shown, call.apply a = some (a', shown) ∧ Plays a a' (call.wraps a)) ∧
    (∀ rest : List Call, 0 < a.maxLoops → (calls rest a).2 ≤ a.maxLoops ∧
      (a.state ≠ .stopped → (calls rest a).1.state = .stopped → (calls rest a).1.current = 1)) ∧
    ∀ elapsed maxSteps, (∀ gap ∈ a.gaps, gap = 0 ∨ KITTY_ANIM_TICK_QUANTUM_MS ≤ gap) →
      (∀ s, playback a.gaps none elapsed a = some s → s.steps ≤ maxSteps) →
      a.advanceBounded elapsed maxSteps = a.advance elapsed := by
  refine ⟨fun call => call.neverBack_iff valid, fun call => call.plays valid, fun rest budget => ?_,
    fun elapsed maxSteps quantum enough => ?_⟩
  · cases rest with
    | nil => exact ⟨Nat.zero_le _, fun runs stopped => absurd stopped runs⟩
    | cons call rest =>
      have plays := plays_calls valid (call :: rest) (List.cons_ne_nil _ _)
      have within := plays.wraps budget
      have all : a.left ≤ a.maxLoops := by
        unfold left
        split <;> omega
      refine ⟨by omega, fun runs stopped => ?_⟩
      rcases plays.stops with same | ⟨_, root⟩
      · exact absurd (same ▸ stopped) runs
      · exact root
  · unfold advanceBounded advance
    rw [map_effective quantum]
    cases busy : a.idle with
    | true => rfl
    | false =>
      obtain ⟨_, _, timed⟩ := not_idle busy
      obtain ⟨s, plays⟩ := exists_playback none elapsed (.refl a.gaps) valid timed
      rw [plays, playback_bounded plays (enough s plays)]

/-- Two frames that are shown in turn. -/
theorem playback_sound_iff_pair : ∃ a' shown, (Call.advance 25).apply ⟨[10, 20], 1, .running, 2, 0⟩ = some (a', shown) ∧
    Plays ⟨[10, 20], 1, .running, 2, 0⟩ a' ((Call.advance 25).wraps ⟨[10, 20], 1, .running, 2, 0⟩) :=
  (playback_sound_iff ⟨by decide, by decide, by decide⟩).2.1 (.advance 25)

/-- A loading animation whose last frame is gapless goes from that frame back to the root frame. -/
theorem advance_back : advance 0 ⟨[10, 0], 2, .loading, 0, 0⟩ = some (⟨[10, 0], 1, .loading, 0, 1⟩, some 1) := by
  decide

/-- What a client asks of an animation, and the clock. -/
inductive Request
  | pushFrame (gapMs : Nat)
  | setGap (n gapMs : Nat)
  | setCurrent (n : Nat)
  | setState (state : KittyAnimState)
  | setLoops (v : UInt32)
  | clock (call : Call)

/-- A refused request changes nothing; there is no answer when playback does not come to an end. -/
def serve (a : KittyAnimation) : Request → Option KittyAnimation
  | .pushFrame gapMs => some ((a.pushFrame gapMs).toOption.elim a (·.1))
  | .setGap n gapMs => some ((a.setGap n gapMs).toOption.getD a)
  | .setCurrent n => some ((a.setCurrent n).toOption.getD a)
  | .setState state => some (a.setState state)
  | .setLoops v => some (a.setLoops v.toNat).1
  | .clock call => (call.apply a).map (·.1)

theorem Valid.serve {a : KittyAnimation} (valid : a.Valid) (request : Request) : ∃ a', a.serve request = some a' ∧ a'.Valid := by
  cases request with
  | pushFrame gapMs =>
    refine ⟨_, rfl, ?_⟩
    cases pushed : a.pushFrame gapMs with
    | error e => exact valid
    | ok grown => exact valid.pushFrame pushed
  | setGap n gapMs =>
    refine ⟨_, rfl, ?_⟩
    cases changed : a.setGap n gapMs with
    | error e => exact valid
    | ok a' => exact valid.setGap changed
  | setCurrent n =>
    refine ⟨_, rfl, ?_⟩
    cases changed : a.setCurrent n with
    | error e => exact valid
    | ok a' => exact valid.setCurrent changed
  | setState state => exact ⟨_, rfl, valid.setState state⟩
  | setLoops v => exact ⟨_, rfl, valid.setLoops v.toNat_lt⟩
  | clock call =>
    obtain ⟨a', shown, applied, plays⟩ := call.plays valid
    exact ⟨a', by rw [KittyAnimation.serve, applied]; rfl, plays.valid⟩

/-- Whatever is asked of a new animation, playback comes to an end, and the frame it then shows is one of the frames,
and not a gapless one unless the animation is stopped or without duration. -/
theorem requests_answered (requests : List Request) (call : Call) :
    ∃ a a' shown, requests.foldlM serve new = some a ∧ call.apply a = some (a', shown) ∧
      1 ≤ a'.current ∧ a'.current ≤ a'.gaps.length ∧
      (a'.state = .stopped ∨ a'.durationMs = 0 ∨ a'.gaps.getD (a'.current - 1) 0 ≠ 0) := by
  have run (a : KittyAnimation) (valid : a.Valid) : ∃ a', requests.foldlM serve a = some a' ∧ a'.Valid := by
    induction requests generalizing a with
    | nil => exact ⟨a, rfl, valid⟩
    | cons request rest ih =>
      obtain ⟨a', served, valid⟩ := valid.serve request
      rw [List.foldlM_cons, served]
      exact ih a' valid
  obtain ⟨a, asked, valid⟩ := run new valid_new
  obtain ⟨a', shown, applied, plays⟩ := call.plays valid
  exact ⟨a, a', shown, asked, applied, plays.valid.positive, plays.valid.bound, plays.shown⟩

end KittyAnimation

end Bitty.Term
