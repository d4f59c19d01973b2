import Calculator.Text.Blank
/- The lexemes of an expression: maximal runs of digits and points, and every
   other character on its own. Blanks separate nothing, they are left out
   before the expression is cut. -/
namespace Calculator

inductive Lexeme
  | run (cs : List Char)
  | symbol (c : Char)
  deriving DecidableEq

namespace Lexeme

/-- The characters of a run. -/
def isRunChar (c : Char) : Bool := c.isDigit || c = '.'

/-- Puts a digit or a point before the lexemes of what follows it. -/
def extend (c : Char) : List Lexeme → List Lexeme
  | .run cs :: ls => .run (c :: cs) :: ls
  | ls => .run [c] :: ls

/-- Cuts text without blanks into its lexemes. -/
def ofChars : List Char → List Lexeme
  | [] => []
  | c :: cs => if isRunChar c then extend c (ofChars cs) else .symbol c :: ofChars cs

def chars : Lexeme → List Char
  | .run cs => cs
  | .symbol c => [c]

theorem flatMap_chars_extend (c : Char) (ls : List Lexeme) :
    (extend c ls).flatMap chars = c :: ls.flatMap chars := by
  unfold extend
  split <;> simp [chars]

/-- Nothing is lost when a text is cut, and nothing is moved. -/
theorem flatMap_chars_ofChars (cs : List Char) : (ofChars cs).flatMap chars = cs := by
  induction cs with
  | nil => rfl
  | cons c cs ih =>
    simp only [ofChars]
    split
    · rw [flatMap_chars_extend, ih]
    · simp [chars, ih]

/-- The lexemes of an expression, blanks left out. -/
def ofText (s : String) : List Lexeme :=
  ofChars (s.toList.filter fun c => !Text.isBlank c)

end Lexeme
end Calculator
