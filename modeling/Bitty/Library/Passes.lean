import Mathlib

/-! Loops: passes over a body that goes on with a state or leaves with one. -/

namespace Passes

variable {σ : Type}

inductive Pass (σ : Type)
  | next (s : σ)
  | leave (s : σ)

def Pass.state : Pass σ → σ
  | .next s => s
  | .leave s => s

def run (body : σ → Pass σ) : Nat → σ → Option σ
  | 0, _ => none
  | fuel + 1, s =>
    match body s with
    | .leave t => some t
    | .next t => run body fuel t

inductive Visits (body : σ → Pass σ) : σ → σ → Prop
  | here (s : σ) : Visits body s s
  | next {s t u : σ} : body s = .next t → Visits body t u → Visits body s u

variable {body body' : σ → Pass σ} {s t : σ} {fuel : Nat}

theorem run_of_next (next : body s = .next t) : run body (fuel + 1) s = run body fuel t := by
  rw [run, next]

theorem run_of_leave (leave : body s = .leave t) : run body (fuel + 1) s = some t := by
  rw [run, leave]

theorem exists_run {Inv : σ → Prop} (variant : σ → Nat)
    (keeps : ∀ s t, Inv s → body s = .next t → Inv t ∧ variant t < variant s) (first : Inv s)
    (enough : variant s < fuel) : ∃ t, run body fuel s = some t := by
  induction fuel generalizing s with
  | zero => omega
  | succ fuel ih =>
    cases pass : body s with
    | leave t => exact ⟨t, run_of_leave pass⟩
    | next t =>
      obtain ⟨inv, less⟩ := keeps s t first pass
      obtain ⟨u, runs⟩ := ih inv (by omega)
      exact ⟨u, (run_of_next pass).trans runs⟩

theorem run_keeps {Inv Post : σ → Prop} (keeps : ∀ s t, Inv s → body s = .next t → Inv t)
    (leaves : ∀ s t, Inv s → body s = .leave t → Post t) (first : Inv s) (runs : run body fuel s = some t) :
    Post t := by
  induction fuel generalizing s with
  | zero => cases runs
  | succ fuel ih =>
    cases pass : body s with
    | leave u =>
      rw [run_of_leave pass] at runs
      obtain rfl := Option.some.inj runs
      exact leaves s u first pass
    | next u =>
      rw [run_of_next pass] at runs
      exact ih (keeps s u first pass) runs

theorem visits_keeps {Inv : σ → Prop} (keeps : ∀ s t, Inv s → body s = .next t → Inv t) (first : Inv s)
    (visits : Visits body s t) : Inv t := by
  induction visits with
  | here s => exact first
  | next pass _ ih => exact ih (keeps _ _ first pass)

theorem run_congr {Bound : σ → Prop} (back : ∀ s, Bound (body s).state → Bound s)
    (same : ∀ s, Bound (body s).state → body' s = body s) (runs : run body fuel s = some t) (bound : Bound t) :
    Bound s ∧ run body' fuel s = some t := by
  induction fuel generalizing s with
  | zero => cases runs
  | succ fuel ih =>
    cases pass : body s with
    | leave u =>
      rw [run_of_leave pass] at runs
      obtain rfl := Option.some.inj runs
      have bound' : Bound (body s).state := by rwa [pass]
      exact ⟨back s bound', run_of_leave ((same s bound').trans pass)⟩
    | next u =>
      rw [run_of_next pass] at runs
      obtain ⟨later, runs'⟩ := ih runs
      have bound' : Bound (body s).state := by rwa [pass]
      exact ⟨back s bound', (run_of_next ((same s bound').trans pass)).trans runs'⟩

end Passes
