import Calculator.Evaluation
import Calculator.Keypad
/- A session with the calculator: what is shown, and how each key changes it. -/
namespace Calculator

/-- What the calculator shows: the entry, the result line, and in the panel the
    trace and the error of the last evaluation. -/
structure Session where
  entry : String
  output : String
  trace : Trace
  error : String
  deriving DecidableEq

/-- The result line of every failed evaluation. -/
def errorOutput : String := "Error"

namespace Session

def empty : Session := ⟨"", "", .empty, ""⟩

/-- Evaluates the entry, unless it is blank; the entry stays. -/
def equals (s : Session) : Session :=
  if Text.allBlank s.entry then s
  else
    let e := Evaluation.of s.entry
    match e.result with
    | .ok x => { s with output := Number.resultText x, trace := e.trace, error := "" }
    | .error k => { s with output := errorOutput, trace := e.trace, error := k.message }

def press (s : Session) : Key → Session
  | .clear => empty
  | .delete => { s with entry := String.ofList s.entry.toList.dropLast }
  | .equals => s.equals
  | .insert text => { s with entry := s.entry ++ text }

def pressAll (s : Session) (keys : List Key) : Session := keys.foldl press s

theorem pressAll_append (s : Session) (ks ls : List Key) :
    s.pressAll (ks ++ ls) = (s.pressAll ks).pressAll ls := List.foldl_append

/-- The record of a failed entry, none of a success. -/
def entryRecord (entry : String) : Except Error Float → List Record
  | .ok _ => []
  | .error k => [.entryFailed entry k]

/-- What pressing a key notes in the log: the records of the evaluation it
    starts, and one more if that fails. -/
def records (s : Session) : Key → List Record
  | .equals =>
    if Text.allBlank s.entry then []
    else
      let e := Evaluation.of s.entry
      e.records ++ entryRecord s.entry e.result
  | _ => []

/-- What the entry line shows, a zero as long as nothing is entered. -/
def display (s : Session) : String := if Text.allBlank s.entry then "0" else s.entry

/-! ## Steps -/

/-- A step of a session: a key, or an entry put in place of the present one. -/
inductive Step
  | press (key : Key)
  | set (entry : String)

def take (s : Session) : Step → Session
  | .press key => s.press key
  | .set entry => { s with entry := entry }

def stepRecords (s : Session) : Step → List Record
  | .press key => s.records key
  | .set _ => []

/-- The session after each step. -/
def takeEach (s : Session) : List Step → List Session
  | [] => []
  | step :: steps => s.take step :: (s.take step).takeEach steps

/-- The records of each step. -/
def recordsEach (s : Session) : List Step → List (List Record)
  | [] => []
  | step :: steps => s.stepRecords step :: (s.take step).recordsEach steps

end Session
end Calculator
