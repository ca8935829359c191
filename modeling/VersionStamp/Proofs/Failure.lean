import VersionStamp.Failure

namespace VersionStamp

/-!
# Chains of results

A chain of results succeeds if every link does, and fails as the first link that fails.
-/

variable {ε α β : Type}

def failureOf : Except ε α → Option ε
  | .ok _ => none
  | .error why => some why

theorem failureOf_eq_some_iff {x : Except ε α} {why : ε} :
    failureOf x = some why ↔ x = .error why := by
  cases x <;> simp [failureOf]

theorem bind_eq_ok_iff {x : Except ε α} {f : α → Except ε β} {b : β} :
    x >>= f = .ok b ↔ ∃ a, x = .ok a ∧ f a = .ok b := by
  cases x <;> simp [bind, Except.bind]

theorem map_eq_ok_iff {x : Except ε α} {f : α → β} {b : β} :
    f <$> x = .ok b ↔ ∃ a, x = .ok a ∧ f a = b := by
  cases x <;> simp [Functor.map, Except.map]

theorem toOption_eq_some_iff {x : Except ε α} {a : α} : x.toOption = some a ↔ x = .ok a := by
  cases x <;> simp [Except.toOption]

/-- Of two computations one after the other, the first failure counts. -/
theorem failureOf_bind (x : Except ε α) (f : α → Except ε β) :
    failureOf (x >>= f) = (failureOf x).or (x.toOption.bind fun a => failureOf (f a)) := by
  cases x <;> rfl

end VersionStamp
