import Mathlib

/-! Properties of every input of a stream, given what came before it. -/

namespace Stream

variable {ι σ : Type*}

/-- Every input of `is`, with what came before it. -/
def Each (P : List ι → ι → Prop) (is : List ι) : Prop := ∀ before i, before ++ [i] <+: is → P before i

variable {P : List ι → ι → Prop}

theorem Each.nil : Each P [] := by
  intro before i inside
  simp at inside

variable {is : List ι}

theorem each_concat {i : ι} : Each P (is ++ [i]) ↔ Each P is ∧ P is i := by
  constructor
  · exact fun all => ⟨fun before j inside => all before j (inside.trans (List.prefix_append _ _)), all is i List.prefix_rfl⟩
  · rintro ⟨earlier, last⟩ before j inside
    rcases List.prefix_concat_iff.mp inside with same | shorter
    · obtain ⟨rfl, single⟩ := List.append_inj' same rfl
      obtain rfl : j = i := by simpa using single
      exact last
    · exact earlier before j shorter

theorem Each.append {js : List ι} (all : Each P (is ++ js)) :
    Each P is ∧ Each (fun before j => P (is ++ before) j) js := by
  refine ⟨fun before i inside => all before i (inside.trans (List.prefix_append _ _)), fun before j inside => ?_⟩
  refine all _ _ ?_
  rw [List.append_assoc]
  exact (List.prefix_append_right_inj is).mpr inside

theorem each_iff : Each P is ↔ ∀ (n : Nat) (h : n < is.length), P (is.take n) is[n] := by
  constructor
  · intro all n h
    refine all _ _ ?_
    rw [List.take_append_getElem h]
    exact List.take_prefix _ _
  · rintro all before i ⟨after, rfl⟩
    simpa using all before.length (by simp)

instance {P : List ι → ι → Prop} [∀ before i, Decidable (P before i)] (is : List ι) : Decidable (Each P is) :=
  decidable_of_iff _ each_iff.symm

end Stream

/-! A machine that answers each input with a list of outputs, its runs, and the
observational equivalence of the states of a machine that is fed in slices. -/

namespace Transducer

variable {σ τ ι ο : Type*}

def run (step : σ → ι → σ × List ο) : σ → List ι → σ × List ο
  | s, [] => (s, [])
  | s, i :: rest =>
    let first := step s i
    let later := run step first.1 rest
    (later.1, first.2 ++ later.2)

variable {step : σ → ι → σ × List ο}

@[simp] theorem run_nil (s : σ) : run step s [] = (s, []) := rfl

theorem run_cons (s : σ) (i : ι) (rest : List ι) :
    run step s (i :: rest) =
      ((run step (step s i).1 rest).1, (step s i).2 ++ (run step (step s i).1 rest).2) := rfl

@[simp] theorem run_cons_fst (s : σ) (i : ι) (rest : List ι) :
    (run step s (i :: rest)).1 = (run step (step s i).1 rest).1 := rfl

@[simp] theorem run_cons_snd (s : σ) (i : ι) (rest : List ι) :
    (run step s (i :: rest)).2 = (step s i).2 ++ (run step (step s i).1 rest).2 := rfl

theorem run_append (s : σ) (xs ys : List ι) :
    run step s (xs ++ ys) =
      ((run step (run step s xs).1 ys).1, (run step s xs).2 ++ (run step (run step s xs).1 ys).2) := by
  induction xs generalizing s with
  | nil => rfl
  | cons x xs ih => rw [List.cons_append, run_cons, ih, run_cons, List.append_assoc]

@[simp] theorem run_append_fst (s : σ) (xs ys : List ι) :
    (run step s (xs ++ ys)).1 = (run step (run step s xs).1 ys).1 := by rw [run_append]

@[simp] theorem run_append_snd (s : σ) (xs ys : List ι) :
    (run step s (xs ++ ys)).2 = (run step s xs).2 ++ (run step (run step s xs).1 ys).2 := by
  rw [run_append]

theorem run_singleton (s : σ) (i : ι) : run step s [i] = step s i := by
  rw [run_cons]
  simp

theorem run_invariant {Inv : σ → Prop} (keeps : ∀ s i, Inv s → Inv (step s i).1)
    {s : σ} (holds : Inv s) (is : List ι) : Inv (run step s is).1 := by
  induction is generalizing s with
  | nil => exact holds
  | cons i is ih => exact ih (keeps s i holds)

theorem run_simulation {other : τ → ι → τ × List ο} {Rel : σ → τ → Prop}
    (keeps : ∀ s t i, Rel s t → Rel (step s i).1 (other t i).1 ∧ (step s i).2 = (other t i).2)
    {s : σ} {t : τ} (related : Rel s t) (is : List ι) :
    Rel (run step s is).1 (run other t is).1 ∧ (run step s is).2 = (run other t is).2 := by
  induction is generalizing s t with
  | nil => exact ⟨related, rfl⟩
  | cons i is ih =>
    obtain ⟨next, same⟩ := keeps s t i related
    obtain ⟨last, rest⟩ := ih next
    exact ⟨last, by rw [run_cons_snd, run_cons_snd, same, rest]⟩

end Transducer

/-- A machine fed slices of a stream, for which only the stream counts: the cuts between
the slices cannot be observed. -/
structure StreamMachine (ι ο : Type*) where
  State : Type*
  init : State
  advance : State → List ι → State × List ο
  advance_nil : ∀ s, advance s [] = (s, [])
  advance_append : ∀ s xs ys, advance s (xs ++ ys) =
    ((advance (advance s xs).1 ys).1, (advance s xs).2 ++ (advance (advance s xs).1 ys).2)

namespace StreamMachine

variable {ι ο : Type*} (M : StreamMachine ι ο)

def ofStep {σ : Type*} (init : σ) (step : σ → ι → σ × List ο) : StreamMachine ι ο where
  State := σ
  init := init
  advance := Transducer.run step
  advance_nil _ := rfl
  advance_append := Transducer.run_append

def step (s : M.State) (i : ι) : M.State × List ο := M.advance s [i]

@[simp] theorem advance_cons_fst (s : M.State) (i : ι) (is : List ι) :
    (M.advance s (i :: is)).1 = (M.advance (M.step s i).1 is).1 := by
  rw [← List.singleton_append, M.advance_append]
  rfl

def TraceEq (s t : M.State) : Prop := ∀ is, (M.advance s is).2 = (M.advance t is).2

variable {M}

theorem TraceEq.refl (s : M.State) : M.TraceEq s s := fun _ => rfl

theorem TraceEq.trans {s t u : M.State} (first : M.TraceEq s t) (second : M.TraceEq t u) :
    M.TraceEq s u :=
  fun is => (first is).trans (second is)

theorem TraceEq.advance {s t : M.State} (same : M.TraceEq s t) (is : List ι) :
    M.TraceEq (M.advance s is).1 (M.advance t is).1 := by
  intro js
  have whole := same (is ++ js)
  rw [M.advance_append, M.advance_append, same is] at whole
  exact List.append_cancel_left whole

end StreamMachine
