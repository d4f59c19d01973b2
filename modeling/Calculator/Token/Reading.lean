import Calculator.Error
import Calculator.Token.Basic
import Calculator.Token.Lexeme
/- Reading the tokens of an expression. Each lexeme becomes one token, a minus
   sign according to what stands before it, and a sign directly before a number
   is then taken into the number. -/
namespace Calculator.Token

/-- The token of a single character; a minus sign subtracts after an operand
    and is a sign elsewhere. -/
def ofSymbol (afterOperand : Bool) (c : Char) : Except Error Token :=
  match c with
  | '+' => .ok (.op (.binary .add))
  | '-' => .ok (.op (if afterOperand then .binary .sub else .neg))
  | '*' => .ok (.op (.binary .mul))
  | '/' => .ok (.op (.binary .div))
  | '^' => .ok (.op (.binary .pow))
  | '(' => .ok .lparen
  | ')' => .ok .rparen
  | c => .error (.unexpectedCharacter c)

def ofLexeme (afterOperand : Bool) : Lexeme → Except Error Token
  | .run cs =>
    match Number.read? cs with
    | some x => .ok (.num x)
    | none => .error (.invalidNumber (String.ofList cs))
  | .symbol c => ofSymbol afterOperand c

/-- One token for each lexeme, up to the first that has none. -/
def ofLexemes (afterOperand : Bool) : List Lexeme → Except Error (List Token)
  | [] => .ok []
  | l :: ls => do
    let t ← ofLexeme afterOperand l
    let ts ← ofLexemes t.endsOperand ls
    return t :: ts

/-- Takes every sign that stands directly before a number into the number. -/
def fuseSigns : List Token → List Token
  | .op .neg :: .num x :: ts => .num (-x) :: fuseSigns ts
  | t :: ts => t :: fuseSigns ts
  | [] => []

/-- The tokens of an expression. -/
def ofText (s : String) : Except Error (List Token) := do
  let ts ← ofLexemes false (Lexeme.ofText s)
  return fuseSigns ts

end Calculator.Token
