import Calculator.Decimal.Shortest
/- Numbers as text: `read?` for the digit runs of an expression, `text` for
   tokens and `resultText` for the result line. -/
namespace Calculator.Number
open Binary64

/-- The number nearest to what a run of digits and points denotes, if it
    denotes one and that number is finite. -/
def read? (run : List Char) : Option Float :=
  match Decimal.ofRun? run with
  | none => none
  | some d => if d.rank < infinity then some (ofRank false d.rank) else none

/-- A minus sign before the text of a negative number. -/
def signed (negative : Bool) (text : String) : String :=
  if negative then "-" ++ text else text

/-- The shortest decimal that reads back, signed, -0 included. -/
def text (x : Float) : String :=
  if isNaN x then "NaN"
  else signed (isNegative x) (if isFinite x then (Decimal.shortest (rank x)).text else "inf")

/-- Whether the result line shows `x` with all its digits: a whole number
    below 2^63 in magnitude. -/
def isExact (x : Float) : Bool :=
  isFinite x && isWhole (rank x) && units (rank x) < Nat.pow 2 63 * one

/-- Text of the result line: whole numbers below 2^63 exactly and without a
    sign on zero, the others as `text`. -/
def resultText (x : Float) : String :=
  if isExact x then
    signed (isNegative x && !isZero x) (units (rank x) / one).repr
  else text x

end Calculator.Number
