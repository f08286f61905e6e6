/-!
# Checks

A reader of untrusted bytes is a list of checks that ends in a result, and the
first check that fails decides the error.  `require` is a check of a condition,
`demand` one that also takes a value out of an `Option`.  The lemmas say when a
list of checks succeeds and which error it gives, one check at a time.
-/

namespace ShaderIntake

variable {ε α β : Type}

/-- Fails with `e` unless `p` holds. -/
def require (p : Prop) [Decidable p] (e : ε) : Except ε Unit :=
  if p then .ok () else .error e

/-- The value, or failure with `e` if there is none. -/
def demand (o : Option α) (e : ε) : Except ε α :=
  match o with
  | some a => .ok a
  | none => .error e

@[simp] theorem require_bind_eq_ok {p : Prop} [Decidable p] {e : ε} {k : Unit → Except ε α}
    {r : α} : (require p e >>= k) = .ok r ↔ p ∧ k () = .ok r := by
  by_cases h : p <;> simp [require, h, bind, Except.bind]

@[simp] theorem require_bind_eq_error {p : Prop} [Decidable p] {e e' : ε}
    {k : Unit → Except ε α} :
    (require p e >>= k) = .error e' ↔ (¬p ∧ e = e') ∨ (p ∧ k () = .error e') := by
  by_cases h : p <;> simp [require, h, bind, Except.bind]

theorem bind_eq_ok {x : Except ε α} {k : α → Except ε β} {r : β} :
    (x >>= k) = .ok r ↔ ∃ a, x = .ok a ∧ k a = .ok r := by
  cases x <;> simp [bind, Except.bind]

/-- What fails is what never succeeds. -/
theorem exists_eq_error_iff {x : Except ε α} : (∃ e, x = .error e) ↔ ∀ a, x ≠ .ok a := by
  cases x <;> simp

/-- A check depends on the truth of its condition alone. -/
theorem require_congr {p q : Prop} [Decidable p] [Decidable q] {e : ε} (h : p ↔ q) :
    require p e = require q e := by
  by_cases hp : p
  · simp [require, hp, h.1 hp]
  · simp [require, hp, mt h.2 hp]

-- Not by `rfl`: `simp` would use such an equation by unfolding alone, and the kernel
-- would then have to evaluate the readers to see that nothing changed.
@[simp] theorem ok_bind {a : α} {k : α → Except ε β} : (Except.ok a >>= k) = k a := by
  simp only [bind, Except.bind]

@[simp] theorem error_bind {e : ε} {k : α → Except ε β} :
    (Except.error e >>= k) = .error e := by
  simp only [bind, Except.bind]

/-- A result that is worked up further fails as before. -/
theorem bind_ok_eq_error {x : Except ε α} {f : α → β} {e : ε} :
    (x >>= fun a => .ok (f a)) = .error e ↔ x = .error e := by
  cases x <;> simp [bind, Except.bind]

theorem require_bind_of_pos {p : Prop} [Decidable p] {e : ε} {k : Unit → Except ε α} (hp : p) :
    (require p e >>= k) = k () := by
  rw [require, if_pos hp, ok_bind]

theorem require_bind_of_neg {p : Prop} [Decidable p] {e : ε} {k : Unit → Except ε α} (hp : ¬p) :
    (require p e >>= k) = .error e := by
  rw [require, if_neg hp, error_bind]

/-- What follows a check only counts where the condition holds. -/
theorem require_bind_congr {p : Prop} [Decidable p] {e : ε} {k k' : Unit → Except ε α}
    (h : p → k () = k' ()) : (require p e >>= k) = (require p e >>= k') := by
  by_cases hp : p
  · rw [require_bind_of_pos hp, require_bind_of_pos hp, h hp]
  · rw [require_bind_of_neg hp, require_bind_of_neg hp]

@[simp] theorem demand_some {a : α} {e : ε} : demand (some a) e = .ok a := rfl

@[simp] theorem demand_none {e : ε} : demand (none : Option α) e = .error e := rfl

/-- What follows only counts for the value that is there. -/
theorem demand_bind_congr {o : Option α} {e : ε} {k k' : α → Except ε β}
    (h : ∀ a, o = some a → k a = k' a) : (demand o e >>= k) = (demand o e >>= k') := by
  cases o with
  | none => rfl
  | some a => rw [demand_some, ok_bind, ok_bind, h a rfl]

@[simp] theorem demand_bind_eq_ok {o : Option α} {e : ε} {k : α → Except ε β} {r : β} :
    (demand o e >>= k) = .ok r ↔ ∃ a, o = some a ∧ k a = .ok r := by
  cases o <;> simp [demand, bind, Except.bind]

@[simp] theorem demand_bind_eq_error {o : Option α} {e e' : ε} {k : α → Except ε β} :
    (demand o e >>= k) = .error e' ↔
      (o = none ∧ e = e') ∨ ∃ a, o = some a ∧ k a = .error e' := by
  cases o <;> simp [demand, bind, Except.bind]

end ShaderIntake
