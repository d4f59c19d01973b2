import Calculator.Binary64
/- Decimal fractions, `digits / 10^places`. They are read from a run of digits
   and points (`ofRun?`), written in positional notation without an exponent
   (`text`), and each has a nearest binary64 magnitude (`rank`). -/
namespace Calculator

structure Decimal where
  digits : Nat
  places : Nat
  deriving DecidableEq

namespace Decimal
open Binary64

/-- The rank of the magnitude nearest to `d`. -/
def rank (d : Decimal) : Nat := nearest (d.digits * one) (Nat.pow 10 d.places)

/-! ## Reading -/

/-- Reads digits with at most one point among them, before or after them all
    as well; a lone point is no number. -/
def ofRun? (run : List Char) : Option Decimal :=
  let whole := run.takeWhile Char.isDigit
  match run.dropWhile Char.isDigit with
  | [] => if whole = [] then none else some ⟨Nat.ofDigitChars 10 whole 0, 0⟩
  | c :: fraction =>
    if c = '.' ∧ fraction.all Char.isDigit ∧ whole ++ fraction ≠ [] then
      some ⟨Nat.ofDigitChars 10 (whole ++ fraction) 0, fraction.length⟩
    else none

/-! ## Writing -/

/-- The `k` lowest digits of `n`, the lowest first. -/
def lowDigits : Nat → Nat → List Char
  | 0, _ => []
  | k + 1, n => (n % 10).digitChar :: lowDigits k (n / 10)

/-- The digits behind the point, without zeros at the end. -/
def fraction (d : Decimal) : List Char :=
  ((lowDigits d.places d.digits).dropWhile (· = '0')).reverse

/-- Positional notation: the whole part, then a point and the fraction if there
    is one. -/
def text (d : Decimal) : String :=
  let whole := (d.digits / Nat.pow 10 d.places).repr
  match d.fraction with
  | [] => whole
  | f => whole ++ "." ++ String.ofList f

end Decimal
end Calculator
