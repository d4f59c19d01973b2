/- Runs told step by step. `each s as` has one entry for each step of a run from `s`:
   what the step `a` gives in the state `t` is `out t a`, and the next state is
   `step t a`. So the entry of a step is what it gives in the state that the steps
   before it lead to (`getElem?_each`), and if steps give something of the next state,
   the last entry is that of the state in which the run ends (`getLastD_each`). -/
namespace Calculator

variable {σ α β : Type} (step : σ → α → σ)

theorem getElem?_each (out : σ → α → β) (each : σ → List α → List β)
    (h : ∀ s a as, each s (a :: as) = out s a :: each (step s a) as)
    (s : σ) (before : List α) (a : α) (rest : List α) :
    (each s (before ++ a :: rest))[before.length]? = some (out (before.foldl step s) a) := by
  induction before generalizing s with
  | nil =>
    rw [List.nil_append, h]
    rfl
  | cons first before ih =>
    rw [List.cons_append, h, List.length_cons, List.getElem?_cons_succ]
    exact ih (step s first)

theorem getLastD_each (out : σ → β) (each : σ → List α → List β) (hnil : ∀ s, each s [] = [])
    (hcons : ∀ s a as, each s (a :: as) = out (step s a) :: each (step s a) as)
    (s : σ) (as : List α) : (each s as).getLastD (out s) = out (as.foldl step s) := by
  induction as generalizing s with
  | nil =>
    rw [hnil]
    rfl
  | cons a as ih =>
    rw [hcons, List.getLastD_cons]
    exact ih (step s a)

end Calculator
