import Mathlib

/-! Computations on a state that may refuse. What was changed before a refusal stays changed, as
for a method on `&mut self` that returns early. -/

theorem Except.bind_ok {ε α β : Type} {x : Except ε α} {f : α → Except ε β} {b : β} (done : (x >>= f) = .ok b) :
    ∃ a, x = .ok a ∧ f a = .ok b := by
  cases x with
  | error e => cases done
  | ok a => exact ⟨a, rfl, done⟩

theorem Except.bind_error {ε α β : Type} {x : Except ε α} {f : α → Except ε β} {e : ε} (refused : (x >>= f) = .error e) :
    x = .error e ∨ ∃ a, x = .ok a ∧ f a = .error e := by
  cases x with
  | error e' =>
    cases refused
    exact .inl rfl
  | ok a => exact .inr ⟨a, rfl, refused⟩

def Mutation (σ ε α : Type) := σ → Except ε α × σ

namespace Mutation

variable {σ τ ε δ α β : Type}

instance : Monad (Mutation σ ε) where
  pure a := fun s => (.ok a, s)
  bind m f := fun s =>
    match m s with
    | (.ok a, s₁) => f a s₁
    | (.error e, s₁) => (.error e, s₁)

def refuse (e : ε) : Mutation σ ε α := fun s => (.error e, s)

def ask (f : σ → Except ε α) : Mutation σ ε α := fun s => (f s, s)

def read (f : σ → α) : Mutation σ ε α := fun s => (.ok (f s), s)

def change (f : σ → σ) : Mutation σ ε Unit := fun s => (.ok (), f s)

def refuseIf (c : σ → Bool) (e : ε) : Mutation σ ε Unit := fun s => if c s then (.error e, s) else (.ok (), s)

def zoom (get : τ → σ) (set : τ → σ → τ) (refusal : δ → ε) (m : Mutation σ δ α) : Mutation τ ε α := fun t =>
  ((m (get t)).1.mapError refusal, set t (m (get t)).2)

def attempt (m : Mutation σ ε α) : Mutation σ ε (Option α) := fun s => (.ok (m s).1.toOption, (m s).2)

@[simp] theorem pure_apply (a : α) (s : σ) : (pure a : Mutation σ ε α) s = (.ok a, s) := rfl

@[simp] theorem refuse_apply (e : ε) (s : σ) : (refuse e : Mutation σ ε α) s = (.error e, s) := rfl

@[simp] theorem ask_apply (f : σ → Except ε α) (s : σ) : ask f s = (f s, s) := rfl

@[simp] theorem read_apply (f : σ → α) (s : σ) : (read f : Mutation σ ε α) s = (.ok (f s), s) := rfl

@[simp] theorem change_apply (f : σ → σ) (s : σ) : (change f : Mutation σ ε Unit) s = (.ok (), f s) := rfl

theorem bind_apply (m : Mutation σ ε α) (f : α → Mutation σ ε β) (s : σ) :
    (m >>= f) s = match m s with
      | (.ok a, s₁) => f a s₁
      | (.error e, s₁) => (.error e, s₁) := rfl

variable {m : Mutation σ ε α} {s : σ}

theorem bind_of_ok {s₁ : σ} {a : α} (first : m s = (.ok a, s₁)) (f : α → Mutation σ ε β) : (m >>= f) s = f a s₁ := by
  rw [bind_apply, first]

variable {e : ε}

theorem bind_of_error {s₁ : σ} (first : m s = (.error e, s₁)) (f : α → Mutation σ ε β) :
    (m >>= f) s = (.error e, s₁) := by
  rw [bind_apply, first]

theorem bind_pure_apply (m : Mutation σ ε α) (g : α → β) (s : σ) :
    (m >>= fun a => pure (g a)) s = ((m s).1.map g, (m s).2) := by
  rw [bind_apply]
  split <;> rename_i run <;> rw [run] <;> rfl

variable {s' : σ}

theorem bind_cases {f : α → Mutation σ ε β} {r : Except ε β} (run : (m >>= f) s = (r, s')) :
    (∃ e, m s = (.error e, s') ∧ r = .error e) ∨ ∃ a s₁, m s = (.ok a, s₁) ∧ f a s₁ = (r, s') := by
  rw [bind_apply] at run
  split at run
  · rename_i a s₁ first
    exact .inr ⟨a, s₁, first, run⟩
  · rename_i e s₁ first
    obtain ⟨rfl, rfl⟩ := Prod.mk.inj run
    exact .inl ⟨e, first, rfl⟩

variable {b : β}

theorem bind_ok {f : α → Mutation σ ε β}
    (run : (m >>= f) s = (.ok b, s')) : ∃ a s₁, m s = (.ok a, s₁) ∧ f a s₁ = (.ok b, s') := by
  rcases bind_cases run with ⟨e, -, impossible⟩ | done
  · cases impossible
  · exact done

@[simp] theorem read_bind (f : σ → α) (g : α → Mutation σ ε β) (s : σ) : (read f >>= g) s = g (f s) s := rfl

@[simp] theorem change_bind (f : σ → σ) (g : Unit → Mutation σ ε β) (s : σ) : (change f >>= g) s = g () (f s) := rfl

theorem ask_bind_cases {f : σ → Except ε α} {g : α → Mutation σ ε β} {r : Except ε β}
    (run : (ask f >>= g) s = (r, s')) :
    (∃ e, f s = .error e ∧ r = .error e ∧ s' = s) ∨ ∃ a, f s = .ok a ∧ g a s = (r, s') := by
  rw [bind_apply, ask_apply] at run
  cases check : f s with
  | error e =>
    rw [check] at run
    obtain ⟨rfl, rfl⟩ := Prod.mk.inj run
    exact .inl ⟨e, rfl, rfl, rfl⟩
  | ok a =>
    rw [check] at run
    exact .inr ⟨a, rfl, run⟩

theorem ask_bind_of_ok {f : σ → Except ε α} {a : α} (check : f s = .ok a) (g : α → Mutation σ ε β) :
    (ask f >>= g) s = g a s := by
  rw [bind_apply, ask_apply, check]

variable {c : σ → Bool}

theorem refuseIf_bind_cases {g : Unit → Mutation σ ε β} {r : Except ε β} (run : (refuseIf c e >>= g) s = (r, s')) :
    (c s = true ∧ r = .error e ∧ s' = s) ∨ c s = false ∧ g () s = (r, s') := by
  rw [bind_apply, refuseIf] at run
  cases check : c s with
  | true =>
    rw [check] at run
    obtain ⟨rfl, rfl⟩ := Prod.mk.inj run
    exact .inl ⟨rfl, rfl, rfl⟩
  | false =>
    rw [check] at run
    exact .inr ⟨rfl, run⟩

theorem ask_bind_ok {f : σ → Except ε α} {g : α → Mutation σ ε β}
    (run : (ask f >>= g) s = (.ok b, s')) : ∃ a, f s = .ok a ∧ g a s = (.ok b, s') := by
  rcases ask_bind_cases run with ⟨e, -, impossible, -⟩ | passed
  · cases impossible
  · exact passed

theorem refuseIf_bind_ok {g : Unit → Mutation σ ε β}
    (run : (refuseIf c e >>= g) s = (.ok b, s')) : c s = false ∧ g () s = (.ok b, s') := by
  rcases refuseIf_bind_cases run with ⟨-, impossible, -⟩ | passed
  · cases impossible
  · exact passed

theorem refuseIf_cases {r : Except ε Unit} (run : refuseIf c e s = (r, s')) :
    s' = s ∧ (c s = true ∧ r = .error e ∨ c s = false ∧ r = .ok ()) := by
  unfold refuseIf at run
  split at run
  · rename_i refused
    obtain ⟨rfl, rfl⟩ := Prod.mk.inj run
    exact ⟨rfl, .inl ⟨refused, rfl⟩⟩
  · rename_i passed
    obtain ⟨rfl, rfl⟩ := Prod.mk.inj run
    exact ⟨rfl, .inr ⟨by simpa using passed, rfl⟩⟩

def Relates (R : σ → σ → Prop) (m : Mutation σ ε α) : Prop := ∀ s, R s (m s).2

theorem Relates.bind {R : σ → σ → Prop} (trans : ∀ a b c, R a b → R b c → R a c)
    {f : α → Mutation σ ε β} (first : m.Relates R) (second : ∀ a, (f a).Relates R) : (m >>= f).Relates R := by
  intro s
  have start := first s
  rw [bind_apply]
  split
  · rename_i a s₁ run
    rw [run] at start
    exact trans _ _ _ start (second a s₁)
  · rename_i e s₁ run
    rw [run] at start
    exact start

theorem Relates.of_refuseIf {R : σ → σ → Prop} (refl : ∀ s, R s s) (c : σ → Bool) (e : ε) : (refuseIf c e).Relates R := by
  intro s
  unfold refuseIf
  split <;> exact refl s

end Mutation

/-! Two runs of computations that answer alike: with related values or with related refusals, and in related states. -/

namespace Mutation

variable {σ ε α β γ δ : Type}

inductive Lockstep (V : α → β → Prop) (E : ε → ε → Prop) (R : σ → σ → Prop) :
    Except ε α × σ → Except ε β × σ → Prop
  | ok {a b s t} (value : V a b) (state : R s t) : Lockstep V E R (.ok a, s) (.ok b, t)
  | error {e f s t} (refusal : E e f) (state : R s t) : Lockstep V E R (.error e, s) (.error f, t)

/-- Two results, of which neither changes a state. -/
inductive Agree (V : α → β → Prop) (E : ε → ε → Prop) : Except ε α → Except ε β → Prop
  | ok {a b} (value : V a b) : Agree V E (.ok a) (.ok b)
  | error {e f} (refusal : E e f) : Agree V E (.error e) (.error f)

variable {V : α → β → Prop} {W : γ → δ → Prop} {E : ε → ε → Prop} {R : σ → σ → Prop} {s t : σ}

theorem Agree.of_eq {V : α → α → Prop} (refl : ∀ e, E e e) (value : ∀ a, V a a) {x y : Except ε α} (same : x = y) :
    Agree V E x y := by
  subst same
  cases x with
  | error e => exact .error (refl e)
  | ok a => exact .ok (value a)

theorem Agree.bind {x : Except ε α} {y : Except ε β} {f : α → Except ε γ} {g : β → Except ε δ} (first : Agree V E x y)
    (rest : ∀ a b, x = .ok a → y = .ok b → V a b → Agree W E (f a) (g b)) : Agree W E (x >>= f) (y >>= g) := by
  cases first with
  | ok value => exact rest _ _ rfl rfl value
  | error refusal => exact .error refusal

theorem Lockstep.ask {f : σ → Except ε α} {g : σ → Except ε β} {k : α → Mutation σ ε γ} {k' : β → Mutation σ ε δ}
    (agree : Agree V E (f s) (g t)) (state : R s t)
    (rest : ∀ a b, f s = .ok a → g t = .ok b → V a b → Lockstep W E R (k a s) (k' b t)) :
    Lockstep W E R ((Mutation.ask f >>= k) s) ((Mutation.ask g >>= k') t) := by
  rw [bind_apply, bind_apply, ask_apply, ask_apply]
  generalize f s = x, g t = y at agree rest
  cases agree with
  | ok value => exact rest _ _ rfl rfl value
  | error refusal => exact .error refusal state

theorem Lockstep.askSame {f g : σ → Except ε α} {k : α → Mutation σ ε γ} {k' : α → Mutation σ ε δ} (refl : ∀ e, E e e)
    (same : f s = g t) (state : R s t) (rest : ∀ a, f s = .ok a → Lockstep W E R (k a s) (k' a t)) :
    Lockstep W E R ((Mutation.ask f >>= k) s) ((Mutation.ask g >>= k') t) := by
  refine Lockstep.ask (V := Eq) (.of_eq refl (fun _ => rfl) same) state fun a b passed _ eq => ?_
  subst eq
  exact rest a passed

theorem Lockstep.passed {f : σ → Except ε α} {g : σ → Except ε β} {k : α → Mutation σ ε γ} {k' : β → Mutation σ ε δ}
    {a : α} {b : β} (first : f s = .ok a) (second : g t = .ok b) (rest : Lockstep W E R (k a s) (k' b t)) :
    Lockstep W E R ((Mutation.ask f >>= k) s) ((Mutation.ask g >>= k') t) := by
  rw [ask_bind_of_ok first, ask_bind_of_ok second]
  exact rest

theorem Lockstep.refuseIf {c c' : σ → Bool} {e e' : ε} {k : Unit → Mutation σ ε γ} {k' : Unit → Mutation σ ε δ}
    (refusal : E e e') (same : c s = c' t) (state : R s t) (rest : c s = false → Lockstep W E R (k () s) (k' () t)) :
    Lockstep W E R ((Mutation.refuseIf c e >>= k) s) ((Mutation.refuseIf c' e' >>= k') t) := by
  rw [bind_apply, bind_apply, Mutation.refuseIf, Mutation.refuseIf, ← same]
  cases check : c s with
  | true => exact .error refusal state
  | false => exact rest check

theorem Lockstep.bind {m : Mutation σ ε α} {m' : Mutation σ ε β} {k : α → Mutation σ ε γ} {k' : β → Mutation σ ε δ}
    (first : Lockstep V E R (m s) (m' t))
    (rest : ∀ a b s₁ t₁, m s = (.ok a, s₁) → m' t = (.ok b, t₁) → V a b → R s₁ t₁ → Lockstep W E R (k a s₁) (k' b t₁)) :
    Lockstep W E R ((m >>= k) s) ((m' >>= k') t) := by
  rw [bind_apply, bind_apply]
  generalize m s = x, m' t = y at first rest
  cases first with
  | ok value state => exact rest _ _ _ _ rfl rfl value state
  | error refusal state => exact .error refusal state

theorem Lockstep.bind_ok {m : Mutation σ ε α} {m' : Mutation σ ε β} {k : α → Mutation σ ε γ} {k' : β → Mutation σ ε δ}
    {a : α} {b : β} {s₁ t₁ : σ} (first : m s = (.ok a, s₁)) (second : m' t = (.ok b, t₁))
    (rest : Lockstep W E R (k a s₁) (k' b t₁)) : Lockstep W E R ((m >>= k) s) ((m' >>= k') t) := by
  rw [bind_of_ok first, bind_of_ok second]
  exact rest

end Mutation
