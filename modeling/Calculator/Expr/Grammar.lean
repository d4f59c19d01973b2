import Calculator.Expr.Basic
import Calculator.Token.Reading
/- The grammar of written expressions, by levels of increasing tightness: sums,
   products, powers, signed operands and atoms. `Derives` is the grammar on
   tokens, `Spells` the same grammar on characters without blanks, where a minus
   sign directly before a number belongs to the number. -/
namespace Calculator

inductive Level
  | sum | product | power | signed | atom
  deriving DecidableEq

namespace BinaryOp

/-- The level of an expression whose last operator this is. -/
def level : BinaryOp → Level
  | .add | .sub => .sum
  | .mul | .div => .product
  | .pow => .power

/-- The level of the left operand: only powers do not repeat on the left. -/
def left : BinaryOp → Level
  | .add | .sub => .sum
  | .mul | .div => .product
  | .pow => .signed

/-- The level of the right operand: only powers repeat on the right. -/
def right : BinaryOp → Level
  | .add | .sub => .product
  | .mul | .div => .power
  | .pow => .power

end BinaryOp

namespace Expr

/-- `Derives k ts e`: the tokens `ts` are an expression of level `k`, and `e` is
    its tree. -/
inductive Derives : Level → List Token → Expr → Prop
  | num (x : Float) : Derives .atom [.num x] (.num x)
  | parens {ts : List Token} {e : Expr} :
      Derives .sum ts e → Derives .atom (.lparen :: (ts ++ [.rparen])) e
  | neg {ts : List Token} {e : Expr} :
      Derives .signed ts e → Derives .signed (.op .neg :: ts) (.neg e)
  | binary (b : BinaryOp) {ls rs : List Token} {l r : Expr} :
      Derives b.left ls l → Derives b.right rs r →
      Derives b.level (ls ++ .op (.binary b) :: rs) (.binary b l r)
  | signed {ts : List Token} {e : Expr} : Derives .atom ts e → Derives .signed ts e
  | power {ts : List Token} {e : Expr} : Derives .signed ts e → Derives .power ts e
  | product {ts : List Token} {e : Expr} : Derives .power ts e → Derives .product ts e
  | sum {ts : List Token} {e : Expr} : Derives .product ts e → Derives .sum ts e

/-- What digits with a point among them denote: the digits as one whole number,
    and how many of them stand behind the point. -/
def denoted (cs : List Char) : Decimal :=
  ⟨Nat.ofDigitChars 10 (cs.filter Char.isDigit) 0, (cs.dropWhile Char.isDigit).countP Char.isDigit⟩

/-- The characters `cs` are a number and `x` is its value: digits, at least one,
    with at most one point among them, before or after them all as well, and the
    number nearest to what they denote, which is finite. -/
structure Numeral (cs : List Char) (x : Float) : Prop where
  run : ∀ c ∈ cs, Lexeme.isRunChar c = true
  digit : ∃ c ∈ cs, c.isDigit = true
  point : cs.count '.' ≤ 1
  finite : (denoted cs).rank < Binary64.infinity
  nearest : x = Binary64.ofRank false (denoted cs).rank

/-- `Spells k cs e`: the characters `cs` are an expression of level `k`, and `e`
    is its tree, with the signs of numbers taken into the numbers. -/
inductive Spells : Level → List Char → Expr → Prop
  | num {cs : List Char} {x : Float} : Numeral cs x → Spells .atom cs (.num x)
  | parens {cs : List Char} {e : Expr} :
      Spells .sum cs e → Spells .atom ('(' :: (cs ++ [')'])) e
  | negNum {cs : List Char} {x : Float} :
      Numeral cs x → Spells .signed ('-' :: cs) (.num (-x))
  | neg {cs : List Char} {e : Expr} :
      Spells .signed cs e → (∀ x, ¬ Numeral cs x) → Spells .signed ('-' :: cs) (.neg e)
  | binary (b : BinaryOp) {ls rs : List Char} {l r : Expr} :
      Spells b.left ls l → Spells b.right rs r →
      Spells b.level (ls ++ b.symbol.toList ++ rs) (.binary b l r)
  | signed {cs : List Char} {e : Expr} : Spells .atom cs e → Spells .signed cs e
  | power {cs : List Char} {e : Expr} : Spells .signed cs e → Spells .power cs e
  | product {cs : List Char} {e : Expr} : Spells .power cs e → Spells .product cs e
  | sum {cs : List Char} {e : Expr} : Spells .product cs e → Spells .sum cs e

end Expr
end Calculator
