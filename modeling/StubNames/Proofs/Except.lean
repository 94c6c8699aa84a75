/-!
# Computations that succeed

A sequence of computations succeeds when both of its parts do, and a changed error is still one.
-/

namespace StubNames

variable {ε ε' α β : Type} {x : Except ε α}

theorem bind_eq_ok_iff {next : α → Except ε β} {b : β} :
    (x >>= next) = .ok b ↔ ∃ a, x = .ok a ∧ next a = .ok b := by
  cases x with
  | error e => simp [bind, Except.bind]
  | ok a => simp [bind, Except.bind]

theorem exists_eq_error_iff : (∃ e, x = .error e) ↔ ∀ a, x ≠ .ok a := by
  cases x with
  | error e => simp
  | ok a => simp

theorem mapError_eq_ok_iff {f : ε → ε'} {a : α} : x.mapError f = .ok a ↔ x = .ok a := by
  cases x with
  | error e =>
      have herror : (Except.error e : Except ε α).mapError f = .error (f e) := rfl
      simp [herror]
  | ok a =>
      have hok : (Except.ok a : Except ε α).mapError f = .ok a := rfl
      simp [hok]

end StubNames
