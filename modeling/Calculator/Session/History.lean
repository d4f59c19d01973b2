import Calculator.Session
/- A session told by its history: the present entry and the last entry that was
   evaluated. `History.shown` is all that the calculator shows for it. A move is
   what the user of a session does, with the keys called by their labels;
   `Session.after` and `History.after` make the same moves from the start. -/
namespace Calculator

/-- The key with a label is pressed, or an entry is put in place of the present
    one. -/
inductive Move
  | label (text : String)
  | set (entry : String)
  deriving DecidableEq

namespace Move

def step : Move → Session.Step
  | .label text => .press (.ofLabel text)
  | .set entry => .set entry

/-- A move that changes nothing but the entry. -/
def Edits : Move → Prop
  | .label text => text ≠ "C" ∧ text ≠ "="
  | .set _ => True

end Move

/-- The session after these moves. -/
def Session.after (moves : List Move) : Session :=
  moves.foldl (fun s m => s.take m.step) empty

structure History where
  entry : List Char
  evaluated : Option (List Char)
  deriving DecidableEq

namespace History

def empty : History := ⟨[], none⟩

def press (h : History) : Key → History
  | .clear => empty
  | .delete => { h with entry := h.entry.dropLast }
  | .equals => if h.entry.all Text.isBlank then h else { h with evaluated := some h.entry }
  | .insert text => { h with entry := h.entry ++ text.toList }

def take (h : History) : Session.Step → History
  | .press key => h.press key
  | .set entry => { h with entry := entry.toList }

def move (h : History) : Move → History
  | .label text =>
    if text = "C" then empty
    else if text = "DEL" then { h with entry := h.entry.dropLast }
    else if text = "=" then
      if h.entry.all Text.isBlank then h else { h with evaluated := some h.entry }
    else if text = "" then h
    else { h with entry := h.entry ++ text.toList }
  | .set entry => { h with entry := entry.toList }

/-- The history after these moves. -/
def after (moves : List Move) : History := moves.foldl move empty

/-- The result line of an evaluation. -/
def outputOf : Except Error Float → String
  | .ok x => Number.resultText x
  | .error _ => errorOutput

/-- The error line of an evaluation. -/
def errorOf : Except Error Float → String
  | .ok _ => ""
  | .error k => k.message

/-- What the calculator shows: nothing but the entry before the first
    evaluation, the result of the last one after it. -/
def shown (h : History) : Session :=
  match h.evaluated with
  | none => ⟨String.ofList h.entry, "", .empty, ""⟩
  | some cs =>
    let e := Evaluation.of (String.ofList cs)
    ⟨String.ofList h.entry, outputOf e.result, e.trace, errorOf e.result⟩

end History
end Calculator
