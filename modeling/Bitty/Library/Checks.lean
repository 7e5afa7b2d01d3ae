import Mathlib

/-! Checks that are made one after another and refuse at the first that fails. -/

namespace Checks

variable {ε α β : Type}

def refuseIf (c : Prop) [Decidable c] (e : ε) : Except ε Unit := if c then .error e else .ok ()

@[simp] theorem refuseIf_ok {c : Prop} [Decidable c] {e : ε} : refuseIf c e = .ok () ↔ ¬c := by
  by_cases refused : c
  · simp [refuseIf, refused]
  · simp [refuseIf, refused]

@[simp] theorem seq_ok {x : Except ε Unit} {f : Unit → Except ε β} {b : β} :
    (x >>= f) = .ok b ↔ x = .ok () ∧ f () = .ok b := by
  cases x with
  | error e =>
    constructor
    · intro done
      cases done
    · rintro ⟨done, -⟩
      cases done
  | ok u =>
    constructor
    · exact fun done => ⟨rfl, done⟩
    · exact And.right

theorem bind_ok_iff {x : Except ε α} {f : α → Except ε β} {b : β} : (x >>= f) = .ok b ↔ ∃ a, x = .ok a ∧ f a = .ok b := by
  cases x with
  | error e =>
    constructor
    · intro done
      cases done
    · rintro ⟨a, done, -⟩
      cases done
  | ok a =>
    constructor
    · exact fun done => ⟨a, rfl, done⟩
    · rintro ⟨a', same, done⟩
      cases same
      exact done

@[simp] theorem mapError_ok {f : ε → β} {x : Except ε α} {a : α} : x.mapError f = .ok a ↔ x = .ok a := by
  cases x with
  | error e => exact ⟨nofun, nofun⟩
  | ok b => exact ⟨fun same => congrArg _ (Except.ok.inj same), fun same => congrArg _ (Except.ok.inj same)⟩

@[simp] theorem toBool_iff {x : Except ε Unit} : x.toBool = true ↔ x = .ok () := by
  cases x with
  | error e => exact ⟨nofun, nofun⟩
  | ok u => exact ⟨fun _ => rfl, fun _ => rfl⟩

def each (f : α → Except ε Unit) : List α → Except ε Unit
  | [] => .ok ()
  | a :: rest => do
    f a
    each f rest

theorem each_ok {f : α → Except ε Unit} {as : List α} : each f as = .ok () ↔ ∀ a ∈ as, f a = .ok () := by
  induction as with
  | nil => simp [each]
  | cons a rest ih => simp [each, ih]

def distinct [DecidableEq β] (key : α → β) (twice : α → ε) (f g : α → Except ε Unit) : List β → List α → Except ε Unit
  | _, [] => .ok ()
  | seen, a :: rest => do
    f a
    refuseIf (key a ∈ seen) (twice a)
    g a
    distinct key twice f g (key a :: seen) rest

theorem distinct_ok [DecidableEq β] {key : α → β} {twice : α → ε} {f g : α → Except ε Unit} {seen : List β}
    {as : List α} :
    distinct key twice f g seen as = .ok () ↔
      (∀ a ∈ as, f a = .ok () ∧ g a = .ok ()) ∧ (as.map key).Nodup ∧ ∀ a ∈ as, key a ∉ seen := by
  induction as generalizing seen with
  | nil => simp [distinct]
  | cons a rest ih =>
    simp only [distinct, seq_ok, refuseIf_ok, ih, List.map_cons, List.nodup_cons, List.mem_cons, forall_eq_or_imp,
      not_or, List.mem_map, not_exists, not_and]
    constructor
    · rintro ⟨before, fresh, after, others, nodup, apart⟩
      exact ⟨⟨⟨before, after⟩, others⟩, ⟨fun b member => (apart b member).1, nodup⟩, fresh,
        fun b member => (apart b member).2⟩
    · rintro ⟨⟨⟨before, after⟩, others⟩, ⟨once, nodup⟩, fresh, apart⟩
      exact ⟨before, fresh, after, others, nodup, fun b member => ⟨once b member, apart b member⟩⟩

end Checks
