import Calculator.Expr.Basic
import Calculator.Proofs.Outcome
/- The stack of values seen as a stack of trees. A run of the stack machine that
   does not stop with an error has read, token for token, the listings of some
   trees, and holds their values (`run_trees`). So a list of tokens has a value
   exactly if it is the listing of a tree that has it (`value_eq_ok_iff`). -/
namespace Calculator.Postfix
open Calculator.Expr

/-- The listings of a stack of trees, its top last. -/
def listing : List Expr → List Token
  | [] => []
  | e :: es => listing es ++ e.postorder

/-- The trees `es` have the values of the stack, place by place. -/
def Worth (es : List Expr) (stack : List Float) : Prop := es.map Expr.value = stack.map .ok

theorem Worth.nil : Worth [] [] := rfl

theorem Worth.cons_inv {es : List Expr} {x : Float} {stack : List Float}
    (h : Worth es (x :: stack)) : ∃ e es', es = e :: es' ∧ e.value = .ok x ∧ Worth es' stack := by
  cases es with
  | nil => cases h
  | cons e es =>
    rw [Worth, List.map_cons, List.map_cons, List.cons.injEq] at h
    exact ⟨e, es, rfl, h.1, h.2⟩

theorem Worth.cons {es : List Expr} {e : Expr} {x : Float} {stack : List Float}
    (he : e.value = .ok x) (h : Worth es stack) : Worth (e :: es) (x :: stack) := by
  rw [Worth] at h ⊢
  rw [List.map_cons, List.map_cons, he, h]

/-- A token makes a tree of the trees on top. -/
theorem step_trees {es : List Expr} {stack out : List Float} {t : Token} (h : Worth es stack)
    (hs : step stack t = .ok out) :
    ∃ es', Worth es' out ∧ listing es' = listing es ++ [t] := by
  cases t with
  | num x =>
    cases hs
    exact ⟨.num x :: es, .cons rfl h, rfl⟩
  | op o =>
    match o, stack with
    | .neg, [] => cases hs
    | .neg, x :: stack =>
      cases hs
      obtain ⟨e, es, rfl, he, h⟩ := h.cons_inv
      refine ⟨.neg e :: es, .cons (by rw [Expr.value, he]; rfl) h, ?_⟩
      simp only [listing, postorder, List.append_assoc]
    | .binary b, [] => cases hs
    | .binary b, [x] => cases hs
    | .binary b, y :: x :: stack =>
      -- The right operand is on top, the left one below it.
      obtain ⟨z, hz, hs⟩ := bind_eq_ok_iff.mp hs
      cases hs
      obtain ⟨r, es, rfl, hr, h⟩ := h.cons_inv
      obtain ⟨l, es, rfl, hl, h⟩ := h.cons_inv
      refine ⟨.binary b l r :: es, .cons (by rw [Expr.value, hl, hr]; exact hz) h, ?_⟩
      simp only [listing, postorder, List.append_assoc]
  | lparen => cases stack <;> cases hs
  | rparen => cases stack <;> cases hs

theorem run_trees {es : List Expr} {stack out : List Float} {ts : List Token}
    (h : Worth es stack) (hr : run stack ts = .ok out) :
    ∃ es', Worth es' out ∧ listing es' = listing es ++ ts := by
  induction ts generalizing es stack with
  | nil =>
    cases hr
    exact ⟨es, h, (List.append_nil _).symm⟩
  | cons t ts ih =>
    obtain ⟨mid, hs, hr⟩ := bind_eq_ok_iff.mp hr
    obtain ⟨es₁, h₁, hl₁⟩ := step_trees h hs
    obtain ⟨es₂, h₂, hl₂⟩ := ih h₁ hr
    refine ⟨es₂, h₂, ?_⟩
    rw [hl₂, hl₁, List.append_assoc]; rfl

/-- Tokens have a value exactly if they list a tree that has it. -/
theorem value_eq_ok_iff {rpn : List Token} {v : Float} :
    value rpn = .ok v ↔ ∃ e : Expr, rpn = e.postorder ∧ e.value = .ok v := by
  constructor
  · intro h
    obtain ⟨out, hr, h⟩ := bind_eq_ok_iff.mp h
    obtain ⟨es, hw, hl⟩ := run_trees .nil hr
    match out, h with
    | [x], h =>
      cases h
      obtain ⟨e, es, rfl, he, hw⟩ := hw.cons_inv
      obtain rfl := List.map_eq_nil_iff.mp hw
      exact ⟨e, hl.symm, he⟩
  · intro h
    obtain ⟨e, rfl, he⟩ := h
    rw [value_postorder, he]

end Calculator.Postfix
