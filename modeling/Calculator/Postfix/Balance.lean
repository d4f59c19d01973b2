import Calculator.Postfix.Ordering
/- Balanced parentheses, counted: no beginning of the list closes more than it
   opens, and the whole list closes as many as it opens. -/
namespace Calculator

namespace Token

def isOpening : Token → Bool
  | .lparen => true
  | _ => false

def isClosing : Token → Bool
  | .rparen => true
  | _ => false

end Token

structure Balanced (ts : List Token) : Prop where
  beginnings : ∀ us, us <+: ts → us.countP Token.isClosing ≤ us.countP Token.isOpening
  whole : ts.countP Token.isClosing = ts.countP Token.isOpening

end Calculator
