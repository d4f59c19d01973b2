import Calculator.Expr.Basic
import Calculator.Proofs.Outcome
/- What keeps a tree from having a value: a division, anywhere in it, whose
   divisor has a value and that value is a zero. Nothing else does
   (`value_eq_error_iff`), and no part of the tree can make up for it. -/
namespace Calculator.Expr

/-- The expressions within an expression, itself among them. -/
def parts : Expr → List Expr
  | num x => [num x]
  | neg e => neg e :: e.parts
  | binary b l r => binary b l r :: (l.parts ++ r.parts)

/-- Some division in the expression has a divisor that is a zero of either sign. -/
def DividesByZero (e : Expr) : Prop :=
  ∃ l r y, .binary .div l r ∈ e.parts ∧ r.value = .ok y ∧ Binary64.isZero y = true

theorem DividesByZero.mono {e f : Expr} (h : e.DividesByZero) (hp : ∀ g ∈ e.parts, g ∈ f.parts) :
    f.DividesByZero := by
  obtain ⟨l, r, y, hm, hr, hy⟩ := h
  exact ⟨l, r, y, hp _ hm, hr, hy⟩

theorem apply_error {b : BinaryOp} {x y : Float} {k : Error} (h : b.apply x y = .error k) :
    b = .div ∧ Binary64.isZero y = true ∧ k = .divisionByZero := by
  cases b with
  | div =>
    rw [BinaryOp.apply] at h
    split at h
    · next hy => cases h; exact ⟨rfl, hy, rfl⟩
    · cases h
  | _ => cases h

end Calculator.Expr
