/- Outcomes: a value or an error. `bind_eq_ok_iff` is what a computation of two
   steps passes through when it ends in a value; `prepend` writes more before an
   outcome that is a list, as the readers and the reordering do. -/
namespace Calculator

variable {ε α β : Type}

theorem bind_eq_ok_iff {x : Except ε α} {f : α → Except ε β} {b : β} :
    x >>= f = .ok b ↔ ∃ a, x = .ok a ∧ f a = .ok b := by
  cases x with
  | error k => exact ⟨fun h => (by cases h), fun ⟨_, h, _⟩ => (by cases h)⟩
  | ok a => exact ⟨fun h => ⟨a, rfl, h⟩, fun ⟨_, h, hf⟩ => (by cases h; exact hf)⟩

theorem eq_ok_of_toOption {x : Except ε α} {a : α} (h : x.toOption = some a) : x = .ok a := by
  cases x with
  | error k => cases h
  | ok b => exact congrArg Except.ok (Option.some.inj h)

/-- The list of an outcome with `us` before it; an error stays as it is. -/
def prepend (us : List α) (r : Except ε (List α)) : Except ε (List α) := (us ++ ·) <$> r

@[simp] theorem prepend_ok (us vs : List α) :
    prepend us (.ok vs : Except ε (List α)) = .ok (us ++ vs) := rfl

@[simp] theorem prepend_nil (r : Except ε (List α)) : prepend [] r = r := by
  cases r <;> rfl

@[simp] theorem prepend_prepend (us vs : List α) (r : Except ε (List α)) :
    prepend us (prepend vs r) = prepend (us ++ vs) r := by
  cases r with
  | error k => rfl
  | ok ws => simp

/-- What is written before a list is expanded as the list is. -/
theorem flatMap_prepend (f : α → List β) (us : List α) (r : Except ε (List α)) :
    (·.flatMap f) <$> prepend us r = prepend (us.flatMap f) ((·.flatMap f) <$> r) := by
  cases r with
  | error k => rfl
  | ok vs => exact congrArg Except.ok List.flatMap_append

/-- What is written before a list is mapped as the list is. -/
theorem map_prepend (f : α → β) (us : List α) (r : Except ε (List α)) :
    (·.map f) <$> prepend us r = prepend (us.map f) ((·.map f) <$> r) := by
  cases r with
  | error k => rfl
  | ok vs => exact congrArg Except.ok List.map_append

theorem prepend_eq_ok_iff {us ws : List α} {r : Except ε (List α)} :
    prepend us r = .ok ws ↔ ∃ vs, r = .ok vs ∧ us ++ vs = ws := by
  cases r with
  | error k => exact ⟨fun h => (by cases h), fun ⟨_, h, _⟩ => (by cases h)⟩
  | ok vs => simp

end Calculator
