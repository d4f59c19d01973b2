import Calculator.Error
import Calculator.Token.Basic
/- The value of tokens in postfix order, by a stack: a number is put on it, an
   operator takes its operands from the top and puts its result there. -/
namespace Calculator

/-- The result of an operator on its left and its right operand. Zero of either
    sign divides nothing. -/
def BinaryOp.apply (b : BinaryOp) (x y : Float) : Except Error Float :=
  match b with
  | .add => .ok (x + y)
  | .sub => .ok (x - y)
  | .mul => .ok (x * y)
  | .div => if Binary64.isZero y then .error .divisionByZero else .ok (x / y)
  | .pow => .ok (x ^ y)

namespace Postfix

/-- The stack after one token, its top first. -/
def step : List Float → Token → Except Error (List Float)
  | stack, .num x => .ok (x :: stack)
  | x :: stack, .op .neg => .ok (-x :: stack)
  | y :: x :: stack, .op (.binary b) => do return (← b.apply x y) :: stack
  | _, .op _ => .error .missingOperand
  | _, .lparen => .error .malformed
  | _, .rparen => .error .malformed

/-- The stack after all tokens, or the first error. -/
def run (stack : List Float) : List Token → Except Error (List Float)
  | [] => .ok stack
  | t :: ts => do run (← step stack t) ts

/-- The only value left at the end. -/
def value (ts : List Token) : Except Error Float := do
  match ← run [] ts with
  | [x] => .ok x
  | _ => .error .malformed

end Postfix
end Calculator
