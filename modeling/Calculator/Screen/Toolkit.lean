import Calculator.Keyboard
/- What the calculator knows of the toolkit that shows it. On the screen stand the keys
   of the pad in their rows and the header of the panel under them (`Target.all`). A
   toolkit takes the inputs of one frame after the other. In each it reports which of
   these targets are clicked, and it folds the panel open and shut. How it comes to that
   is its own affair, so it is no more than a `Toolkit` to all that is said of the
   screen. -/
namespace Calculator

/-- What can be clicked: a key of the pad or the header of the panel. -/
inductive Target
  | key (label : String)
  | header
  deriving DecidableEq

/-- The header of the panel. -/
def headerLabel : String := "Démarche"

namespace Target

/-- What stands under this label on the screen. -/
def ofLabel? (label : String) : Option Target :=
  if label = headerLabel then some .header
  else if label ∈ Keypad.labels then some (.key label)
  else none

/-- All that can be clicked, from top to bottom and from left to right. -/
def all : List Target := Keypad.labels.map .key ++ [.header]

end Target

/-- What reaches the screen in a frame. -/
inductive Input
  | event (e : Event)
  | click (target : Target)
  deriving DecidableEq

namespace Input

def event? : Input → Option Event
  | .event e => some e
  | .click _ => none

def click? : Input → Option Target
  | .event _ => none
  | .click target => some target

/-- The events of a frame. -/
def events (inputs : List Input) : List Event := inputs.filterMap event?

/-- The targets that the mouse clicks in a frame. -/
def clicks (inputs : List Input) : List Target := inputs.filterMap click?

end Input

/-- A toolkit with states `σ`: which targets it reports as clicked in a frame, its state
    after the frame, and whether the panel is open then. -/
structure Toolkit (σ : Type) where
  start : σ
  clicked : σ → List Input → Target → Bool
  next : σ → List Input → σ
  panelOpen : σ → Bool

end Calculator
