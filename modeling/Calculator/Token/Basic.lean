import Calculator.Number
/- The tokens of an expression, in the order they are written or in postfix
   order, and their text. -/
namespace Calculator

/-- The operators between two operands. -/
inductive BinaryOp
  | add | sub | mul | div | pow
  deriving DecidableEq

/-- The operators, the sign in front of one operand among them. -/
inductive Op
  | binary (b : BinaryOp)
  | neg
  deriving DecidableEq

inductive Token
  | num (x : Float)
  | op (o : Op)
  | lparen
  | rparen
  deriving DecidableEq

def BinaryOp.symbol : BinaryOp → String
  | .add => "+"
  | .sub => "-"
  | .mul => "*"
  | .div => "/"
  | .pow => "^"

def Op.symbol : Op → String
  | .binary b => b.symbol
  | .neg => "neg"

namespace Token

def text : Token → String
  | .num x => Number.text x
  | .op o => o.symbol
  | .lparen => "("
  | .rparen => ")"

/-- The texts of the tokens with a space between neighbours. -/
def listText (ts : List Token) : String := " ".intercalate (ts.map text)

/-- Whether an operand can end with this token, so that a minus sign after it
    subtracts. -/
def endsOperand : Token → Bool
  | .num _ => true
  | .rparen => true
  | _ => false

end Token
end Calculator
