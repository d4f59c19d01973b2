/- The keys of the calculator and their places on the pad. -/
namespace Calculator

/-- What a key does: clear everything, delete the last character of the entry,
    evaluate the entry, or write a text at its end. -/
inductive Key
  | clear
  | delete
  | equals
  | insert (text : String)
  deriving DecidableEq

/-- The key with this label. -/
def Key.ofLabel (label : String) : Key :=
  if label = "C" then .clear
  else if label = "DEL" then .delete
  else if label = "=" then .equals
  else .insert label

namespace Keypad

/-- The labels row by row; the last column is empty below its first place. -/
def rows : List (List String) :=
  [["C", "(", ")", "DEL", "^"],
    ["7", "8", "9", "/", ""],
    ["4", "5", "6", "*", ""],
    ["1", "2", "3", "-", ""],
    ["0", ".", "=", "+", ""]]

/-- The labels of the keys that exist, in reading order. -/
def labels : List String := rows.flatten.filter (· ≠ "")

end Keypad
end Calculator
