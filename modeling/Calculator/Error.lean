/- What can be wrong with an expression, and the words in which it is said. -/
namespace Calculator

inductive Error
  /-- A character outside the alphabet of expressions. -/
  | unexpectedCharacter (c : Char)
  /-- A run of digits and points that denotes no finite number. -/
  | invalidNumber (run : String)
  /-- A closing parenthesis without its opening one, or the reverse. -/
  | unbalancedParentheses
  /-- An operator with too few operands before it in postfix order. -/
  | missingOperand
  | divisionByZero
  /-- No value or several values left, or a parenthesis in postfix order. -/
  | malformed
  deriving DecidableEq

def Error.message : Error → String
  | .unexpectedCharacter c => "caractère inattendu: '" ++ String.singleton c ++ "'"
  | .invalidNumber run => "nombre invalide: \"" ++ run ++ "\""
  | .unbalancedParentheses => "parenthèses non appariées"
  | .missingOperand => "opérande manquant"
  | .divisionByZero => "division par zéro"
  | .malformed => "expression invalide"

end Calculator
