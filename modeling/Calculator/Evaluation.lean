import Calculator.Postfix.Ordering
import Calculator.Postfix.Value
import Calculator.Text.Quoted
import Calculator.Token.Reading
/- The evaluation of an expression: its result, the texts of the stages it
   reached, and the records it leaves in the log. -/
namespace Calculator

/-- The value of an expression, or the first error on the way to it. -/
def evaluate (s : String) : Except Error Float := do
  let ts ← Token.ofText s
  let rpn ← Postfix.ofTokens ts
  Postfix.value rpn

/-- The texts of the tokens and of their postfix order, empty where a stage was
    not reached. -/
structure Trace where
  tokens : String
  rpn : String
  deriving DecidableEq

def Trace.empty : Trace := ⟨"", ""⟩

/-- What is noted in the log. -/
inductive Record
  /-- The tokens were read. -/
  | tokens (text : String)
  /-- They were put in postfix order. -/
  | rpn (text : String)
  /-- The expression has no value. -/
  | failed (expression : String) (e : Error)
  /-- What stands in the entry has no value. -/
  | entryFailed (entry : String) (e : Error)
  deriving DecidableEq

/-- A line of the log; all records are of the debugging level. -/
def Record.line : Record → String
  | .tokens text => "DEBUG jetons: " ++ text
  | .rpn text => "DEBUG rpn: " ++ text
  | .failed s e => "DEBUG évaluation de " ++ Text.quoted s ++ " échouée: " ++ e.message
  | .entryFailed s e => "DEBUG entrée " ++ Text.quoted s ++ " => " ++ e.message

structure Evaluation where
  result : Except Error Float
  trace : Trace
  records : List Record

/-- The record of a failure, none of a success. -/
def failureRecord (s : String) : Except Error Float → List Record
  | .ok _ => []
  | .error e => [.failed s e]

/-- Evaluates `s` and keeps what each stage shows. -/
def Evaluation.of (s : String) : Evaluation :=
  match Token.ofText s with
  | .error e => ⟨.error e, .empty, [.failed s e]⟩
  | .ok ts =>
    let tokens := Token.listText ts
    match Postfix.ofTokens ts with
    | .error e => ⟨.error e, ⟨tokens, ""⟩, [.tokens tokens, .failed s e]⟩
    | .ok rpn =>
      let result := Postfix.value rpn
      ⟨result, ⟨tokens, Token.listText rpn⟩,
        [.tokens tokens, .rpn (Token.listText rpn)] ++ failureRecord s result⟩

/-- The records and the trace are kept beside the result, they do not change it. -/
theorem Evaluation.of_result (s : String) : (Evaluation.of s).result = evaluate s := by
  simp only [Evaluation.of, evaluate]
  cases Token.ofText s with
  | error e => rfl
  | ok ts =>
    simp only [bind, Except.bind]
    cases Postfix.ofTokens ts with
    | error e => rfl
    | ok rpn => rfl

end Calculator
