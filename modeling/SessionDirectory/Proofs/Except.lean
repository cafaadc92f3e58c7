/-!
# Results that may fail

## Main results

* `exists_of_bind_eq_ok`, `bind_eq_ok`: what is made in two parts is made if and only if both parts
  are
-/

set_option autoImplicit false

namespace SessionDirectory

/-- What is made in two parts is made only if both parts are. -/
theorem exists_of_bind_eq_ok {ε α β : Type} {x : Except ε α} {f : α → Except ε β} {b : β}
    (made : x >>= f = .ok b) : ∃ a, x = .ok a ∧ f a = .ok b := by
  cases x with
  | error e => cases made
  | ok a => exact ⟨a, rfl, made⟩

/-- What is made in two parts is made if both parts are. -/
theorem bind_eq_ok {ε α β : Type} {x : Except ε α} {f : α → Except ε β} {a : α} {b : β}
    (first : x = .ok a) (rest : f a = .ok b) : x >>= f = .ok b := by
  rw [first]
  exact rest

end SessionDirectory
