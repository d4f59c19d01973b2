import Calculator.Error
import Calculator.Token.Basic
/- From written order to postfix order. Operators wait until what binds tighter
   has been written out; those that wait inside one pair of parentheses form a
   line, the most recent first, and every parenthesis that is still open keeps
   the line it interrupted. -/
namespace Calculator

/-- How tightly an operator binds. -/
def Op.priority : Op → Nat
  | .binary .add | .binary .sub => 1
  | .binary .mul | .binary .div => 2
  | .binary .pow => 3
  | .neg => 4

/-- Whether equal operators in a row apply from right to left. -/
def Op.rightAssociative : Op → Bool
  | .binary .pow | .neg => true
  | _ => false

/-- Whether `waiting` is applied before the operator `next` that follows it. -/
def Op.precedes (waiting next : Op) : Bool :=
  next.priority < waiting.priority ||
    (next.priority = waiting.priority && !next.rightAssociative)

namespace Postfix

/-- The operators that wait: since the innermost open parenthesis, and for each
    open parenthesis those it interrupted, innermost first. -/
structure Pending where
  line : List Op
  outer : List (List Op)
  deriving DecidableEq

/-- Nothing waits before the first token. -/
def Pending.start : Pending := ⟨[], []⟩

/-- What a token writes out, and what waits after it. -/
def Pending.step (p : Pending) : Token → Except Error (List Token × Pending)
  | .num x => .ok ([.num x], p)
  | .op o =>
    .ok ((p.line.takeWhile (·.precedes o)).map .op,
      ⟨o :: p.line.dropWhile (·.precedes o), p.outer⟩)
  | .lparen => .ok ([], ⟨[], p.line :: p.outer⟩)
  | .rparen =>
    match p.outer with
    | line :: outer => .ok (p.line.map .op, ⟨line, outer⟩)
    | [] => .error .unbalancedParentheses

/-- What the tokens write out from a given state on, and at their end what
    still waits. -/
def Pending.run (p : Pending) : List Token → Except Error (List Token)
  | [] => if p.outer = [] then .ok (p.line.map .op) else .error .unbalancedParentheses
  | t :: ts => do
    let (written, q) ← p.step t
    let rest ← q.run ts
    return written ++ rest

/-- The tokens in postfix order, without parentheses. -/
def ofTokens (ts : List Token) : Except Error (List Token) := Pending.start.run ts

end Postfix
end Calculator
