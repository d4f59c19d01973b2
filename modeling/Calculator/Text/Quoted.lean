import Calculator.Text.Extending
import Calculator.Text.Invisible
import Calculator.Text.Unassigned
/- Quoted text for the log: between double quotes, with what would not be
   seen on its own or would end the quotation escaped. -/
namespace Calculator.Text

/-- Whether a character is written by its code inside quotes: it shows
    nothing, joins the character before it, or is none yet. -/
def isCoded (c : Char) : Bool := isInvisible c || isExtending c || isUnassigned c

/-- A character inside quotes: a backslash before a quote or a backslash, a
    letter for the common control characters, the hexadecimal code in braces
    for the others that would not be seen on their own. -/
def escape (c : Char) : List Char :=
  if c = '"' then ['\\', '"']
  else if c = '\\' then ['\\', '\\']
  else if c = '\n' then ['\\', 'n']
  else if c = '\r' then ['\\', 'r']
  else if c = '\t' then ['\\', 't']
  else if c.toNat = 0 then ['\\', '0']
  else if isCoded c then ['\\', 'u', '\x7b'] ++ Nat.toDigits 16 c.toNat ++ ['\x7d']
  else [c]

def quoted (s : String) : String :=
  String.ofList ('"' :: s.toList.flatMap escape ++ ['"'])

end Calculator.Text
