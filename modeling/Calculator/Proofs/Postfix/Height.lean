import Calculator.Postfix.Value
import Calculator.Proofs.Expr.Division
import Calculator.Proofs.Postfix.Contents
import Calculator.Proofs.Token.Operands
/- The height of the stack of values. On tokens without parentheses the stack
   machine is stopped by a missing operand or by a division by zero and by nothing
   else, and as long as it is not, the stack has one value for each number less one
   for each operator between two operands (`run_cases`). A stack that anything was
   done to is never empty. That leaves three ways for a list of tokens to end
   (`value_cases`), and the counts of numbers, operators and signs tell what the
   result can be (`value_counted`). -/
namespace Calculator

/-- A sign in front of one operand. -/
def Token.isSign : Token → Bool
  | .op .neg => true
  | _ => false

namespace Postfix
open Token

/-- The stack machine is stopped before the end of its tokens. -/
def Stopped {α : Type} (r : Except Error α) : Prop :=
  r = .error .missingOperand ∨ r = .error .divisionByZero

theorem Stopped.bind {α β : Type} {r : Except Error α} (h : Stopped r) (f : α → Except Error β) :
    Stopped (r >>= f) := by
  rcases h with rfl | rfl
  · exact .inl rfl
  · exact .inr rfl

/-- What a token without a parenthesis does to the stack. -/
theorem step_cases (stack : List Float) {t : Token} (ht : t.isParen = false) :
    (∃ x out, step stack t = .ok (x :: out) ∧
      (x :: out).length + [t].countP isBinary = stack.length + [t].countP isNumber) ∨
    Stopped (step stack t) := by
  cases t with
  | num x => exact .inl ⟨x, stack, rfl, rfl⟩
  | op o =>
    match o, stack with
    | .neg, [] => exact .inr (.inl rfl)
    | .neg, x :: stack => exact .inl ⟨-x, stack, rfl, rfl⟩
    | .binary b, [] => exact .inr (.inl rfl)
    | .binary b, [y] => exact .inr (.inl rfl)
    | .binary b, y :: x :: stack =>
      have hstep : step (y :: x :: stack) (.op (.binary b)) =
          b.apply x y >>= fun z => .ok (z :: stack) := rfl
      rw [hstep]
      cases hz : b.apply x y with
      | ok z => exact .inl ⟨z, stack, rfl, rfl⟩
      | error k =>
        obtain ⟨-, -, rfl⟩ := Expr.apply_error hz
        exact .inr (.inr rfl)
  | lparen => cases ht
  | rparen => cases ht

theorem run_cases (stack : List Float) {ts : List Token} (h : ∀ t ∈ ts, t.isParen = false) :
    (∃ out, run stack ts = .ok out ∧ (out = [] → ts = [] ∧ stack = []) ∧
      out.length + ts.countP isBinary = stack.length + ts.countP isNumber) ∨
    Stopped (run stack ts) := by
  induction ts generalizing stack with
  | nil => exact .inl ⟨stack, rfl, fun hnil => ⟨rfl, hnil⟩, rfl⟩
  | cons t ts ih =>
    obtain ⟨ht, hts⟩ := List.forall_mem_cons.mp h
    have hrun : run stack (t :: ts) = step stack t >>= fun mid => run mid ts := rfl
    rcases step_cases stack ht with ⟨x, mid, hstep, hheight⟩ | hstop
    · have hrun : run stack (t :: ts) = run (x :: mid) ts := by rw [hrun, hstep]; rfl
      rw [hrun]
      rcases ih (x :: mid) hts with ⟨out, hout, hne, hlen⟩ | hstop
      · refine .inl ⟨out, hout, fun hnil => ?_, ?_⟩
        · exact absurd (hne hnil).2 (List.cons_ne_nil x mid)
        · rw [← List.singleton_append, List.countP_append, List.countP_append]
          omega
      · exact .inr hstop
    · rw [hrun]
      exact .inr (hstop.bind _)

/-- Tokens in postfix order leave one value, none or several, or they do not come to
    their end. -/
theorem value_cases {rpn : List Token} (h : ∀ t ∈ rpn, t.isParen = false) :
    (∃ x, value rpn = .ok x ∧ rpn.countP isNumber = rpn.countP isBinary + 1) ∨
    (value rpn = .error .malformed ∧ rpn.countP isNumber ≠ rpn.countP isBinary + 1 ∧
      (rpn.countP isNumber ≤ rpn.countP isBinary → rpn = [])) ∨
    (Stopped (value rpn) ∧ rpn ≠ []) := by
  rcases run_cases [] h with ⟨out, hout, hempty, hheight⟩ | hstop
  · rw [value, hout]
    rw [List.length_nil] at hheight
    rcases out with _ | ⟨x, _ | ⟨y, out⟩⟩
    · obtain rfl : rpn = [] := (hempty rfl).1
      exact .inr (.inl ⟨rfl, by decide, fun _ => rfl⟩)
    · rw [List.length_singleton] at hheight
      exact .inl ⟨x, rfl, by omega⟩
    · rw [List.length_cons, List.length_cons] at hheight
      exact .inr (.inl ⟨rfl, by omega, fun _ => by omega⟩)
  · refine .inr (.inr ⟨hstop.bind _, ?_⟩)
    rintro rfl
    rcases hstop with hstop | hstop <;> cases hstop

/-- They have no value for want of an operand, for a division by zero, or because it
    is not one that is left. -/
theorem value_error {rpn : List Token} {k : Error} (h : ∀ t ∈ rpn, t.isParen = false)
    (hk : value rpn = .error k) : k = .missingOperand ∨ k = .divisionByZero ∨ k = .malformed := by
  rcases value_cases h with ⟨x, hx, -⟩ | ⟨hmalformed, -⟩ | ⟨hmissing | hdivision, -⟩
  · rw [hx] at hk
    cases hk
  · exact .inr (.inr (Except.error.inj (hk.symm.trans hmalformed)))
  · exact .inl (Except.error.inj (hk.symm.trans hmissing))
  · exact .inr (.inl (Except.error.inj (hk.symm.trans hdivision)))

/-- What `n` numbers, `m` operators between two operands and `k` signs tell of a
    result. -/
structure Counted (n m k : Nat) (r : Except Error Float) : Prop where
  /-- A value takes one number more than operators. -/
  value : (∃ v, r = .ok v) → n = m + 1
  /-- With one number more nothing is in surplus at the end. -/
  matching : n = m + 1 → r ≠ .error .malformed
  /-- With fewer numbers there is no end, unless there is nothing at all. -/
  few : n ≤ m → ¬ (n = 0 ∧ m = 0 ∧ k = 0) →
    r = .error .missingOperand ∨ r = .error .divisionByZero
  many : m + 2 ≤ n → ∃ e, r = .error e
  nothing : n = 0 ∧ m = 0 ∧ k = 0 → r = .error .malformed

theorem Counted.of_value {n m k : Nat} (x : Float) (h : n = m + 1) :
    Counted n m k (.ok x) where
  value _ := h
  matching _ hr := by cases hr
  few hle _ := by omega
  many hle := by omega
  nothing hnone := by omega

theorem Counted.of_malformed {n m k : Nat} (h : n ≠ m + 1)
    (hfew : n ≤ m → n = 0 ∧ m = 0 ∧ k = 0) : Counted n m k (.error .malformed) where
  value hv := by
    obtain ⟨v, hv⟩ := hv
    cases hv
  matching heq := absurd heq h
  few hle hsome := absurd (hfew hle) hsome
  many _ := ⟨_, rfl⟩
  nothing _ := rfl

theorem Counted.of_stopped {n m k : Nat} {r : Except Error Float} (h : Stopped r)
    (hsome : ¬ (n = 0 ∧ m = 0 ∧ k = 0)) : Counted n m k r where
  value hv := by
    obtain ⟨v, rfl⟩ := hv
    rcases h with h | h <;> cases h
  matching _ hr := by
    subst hr
    rcases h with h | h <;> cases h
  few _ _ := h
  many _ := h.elim (fun h => ⟨_, h⟩) fun h => ⟨_, h⟩
  nothing hnone := absurd hnone hsome

/-- Every token that is no parenthesis is of one of the three kinds. -/
theorem length_eq_counts {ts : List Token} (h : ∀ t ∈ ts, t.isParen = false) :
    ts.length = ts.countP isNumber + ts.countP isBinary + ts.countP isSign := by
  induction ts with
  | nil => rfl
  | cons t ts ih =>
    obtain ⟨ht, hts⟩ := List.forall_mem_cons.mp h
    have hone : 1 = [t].countP isNumber + [t].countP isBinary + [t].countP isSign := by
      rcases t with x | (b | _) | _ | _ <;> first | rfl | cases ht
    have ih := ih hts
    rw [← List.singleton_append, List.length_append, List.countP_append, List.countP_append,
      List.countP_append, List.length_singleton]
    omega

theorem value_counted {rpn : List Token} (h : ∀ t ∈ rpn, t.isParen = false) :
    Counted (rpn.countP isNumber) (rpn.countP isBinary) (rpn.countP isSign) (value rpn) := by
  have hlength := length_eq_counts h
  rcases value_cases h with ⟨x, hx, hn⟩ | ⟨hmalformed, hne, hempty⟩ | ⟨hstop, hsome⟩
  · rw [hx]
    exact .of_value x hn
  · rw [hmalformed]
    refine .of_malformed hne fun hle => ?_
    obtain rfl := hempty hle
    decide
  · refine .of_stopped hstop fun hnone => ?_
    exact hsome (List.eq_nil_of_length_eq_zero (by omega))

end Postfix
end Calculator
