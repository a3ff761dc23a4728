/-!
# Outcomes

When the parts of a computation that may fail yield a result, so does the whole, and conversely.
-/

namespace FrameScope

variable {ε α β : Type}

theorem except_map_eq_ok {f : α → β} {r : Except ε α} {y : β} (h : r.map f = .ok y) :
    ∃ x, r = .ok x ∧ f x = y := by
  cases r with
  | error e => simp [Except.map] at h
  | ok x => exact ⟨x, rfl, by simpa [Except.map] using h⟩

theorem except_map_eq_ok_iff {f : α → β} {r : Except ε α} {y : β} :
    r.map f = .ok y ↔ ∃ x, r = .ok x ∧ f x = y := by
  cases r <;> simp [Except.map]

theorem exists_map_eq_ok_and {f : α → β} {r : Except ε α} {P : β → Prop} :
    (∃ y, r.map f = .ok y ∧ P y) ↔ ∃ x, r = .ok x ∧ P (f x) := by
  cases r <;> simp [Except.map]

theorem except_bind_eq_ok {r : Except ε α} {f : α → Except ε β} {y : β} (h : r.bind f = .ok y) :
    ∃ x, r = .ok x ∧ f x = .ok y := by
  cases r with
  | error e => simp [Except.bind] at h
  | ok x => exact ⟨x, rfl, h⟩

@[simp] theorem toOption_eq_some_iff {r : Except ε α} {x : α} :
    r.toOption = some x ↔ r = .ok x := by
  cases r <;> simp [Except.toOption]

theorem toOption_map (f : α → β) (r : Except ε α) : (r.map f).toOption = r.toOption.map f := by
  cases r <;> rfl

theorem toOption_bind (r : Except ε α) (f : α → Except ε β) :
    (r.bind f).toOption = r.toOption.bind fun x => (f x).toOption := by
  cases r <;> rfl

/-- A result that is there, whatever stands in for one that is not. -/
theorem eq_ok_of_isSome {r : Except ε α} (h : r.toOption.isSome = true) (x : α) :
    r = .ok (r.toOption.getD x) := by
  cases r with
  | error e => simp [Except.toOption] at h
  | ok y => rfl

end FrameScope
