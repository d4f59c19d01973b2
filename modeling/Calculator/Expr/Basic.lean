import Calculator.Postfix.Value
/- Expressions as trees, what a tree is worth, and its listing in postfix order.
   `run_postorder`: the stack machine that meets the listing of a tree, whatever
   follows it, puts the value of the tree on its stack or stops with its error. -/
namespace Calculator

inductive Expr
  | num (x : Float)
  | neg (e : Expr)
  | binary (b : BinaryOp) (l r : Expr)
  deriving DecidableEq

namespace Expr

/-- The value of a tree, the left operand before the right one. -/
def value : Expr → Except Error Float
  | num x => .ok x
  | neg e => do return -(← e.value)
  | binary b l r => do
    let x ← l.value
    let y ← r.value
    b.apply x y

/-- The operands before their operator. -/
def postorder : Expr → List Token
  | num x => [.num x]
  | neg e => e.postorder ++ [.op .neg]
  | binary b l r => l.postorder ++ r.postorder ++ [.op (.binary b)]

theorem run_postorder (e : Expr) (stack : List Float) (ts : List Token) :
    Postfix.run stack (e.postorder ++ ts) =
      e.value >>= fun x => Postfix.run (x :: stack) ts := by
  induction e generalizing stack ts with
  | num x => rfl
  | neg e ih =>
    simp only [postorder, value, List.append_assoc, ih, bind_assoc, pure_bind]
    rfl
  | binary b l r ihl ihr =>
    simp only [postorder, value, List.append_assoc, ihl, ihr, bind_assoc]
    refine bind_congr fun x => bind_congr fun y => ?_
    simp [Postfix.run, Postfix.step]

theorem value_postorder (e : Expr) : Postfix.value e.postorder = e.value := by
  have h := run_postorder e [] []
  rw [List.append_nil] at h
  rw [Postfix.value, h]
  cases e.value <;> rfl

end Expr
end Calculator
