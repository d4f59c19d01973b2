import Calculator.Screen.Focus
/- The screen: a session and a panel that is open or shut. In each frame the typing
   comes first; then those keys of the pad are pressed that the toolkit reports as
   clicked. `Toolkit.screens` is what any toolkit shows of that, `Screen.frameEach` what
   the one shows whose keyboard moves a focus. -/
namespace Calculator

structure Screen where
  session : Session
  panelOpen : Bool
  deriving DecidableEq

namespace Screen

/-- The panel is shut at first. -/
def start : Screen := ⟨.empty, false⟩

/-- The texts inside the panel. -/
def panelTexts (s : Session) : List String :=
  ["Jetons :", s.trace.tokens, "RPN :", s.trace.rpn, s.error]

/-- The texts on the screen from top to bottom, empty ones left out. -/
def texts (s : Screen) : List String :=
  ([s.session.display, s.session.output] ++ Keypad.labels ++ [headerLabel] ++
    if s.panelOpen then panelTexts s.session else []).filter (· ≠ "")

end Screen

/-- A frame: all keyboard events in order, then the keys of the pad that are clicked, in
    their order on the pad. -/
def Session.frame (s : Session) (events : List Event) (clicked : Target → Bool) : Session :=
  (s.type events).pressAll ((Keypad.labels.filter fun label => clicked (.key label)).map .ofLabel)

namespace Toolkit

variable {σ : Type} (T : Toolkit σ)

/-- A frame of the toolkit and of the session that it shows. -/
def step (run : σ × Session) (inputs : List Input) : σ × Session :=
  (T.next run.1 inputs, run.2.frame (Input.events inputs) (T.clicked run.1 inputs))

def screen (run : σ × Session) : Screen := ⟨run.2, T.panelOpen run.1⟩

/-- The screen after each frame. -/
def frameEach (run : σ × Session) : List (List Input) → List Screen
  | [] => []
  | inputs :: rest => T.screen (T.step run inputs) :: frameEach (T.step run inputs) rest

/-- The screen after each frame from the start. -/
def screens (frames : List (List Input)) : List Screen := T.frameEach (T.start, .empty) frames

end Toolkit

/-- The screen after each frame, when nothing has the focus before the first. -/
def Screen.frameEach (s : Screen) (frames : List (List Input)) : List Screen :=
  Focus.toolkit.frameEach (⟨none, s.panelOpen⟩, s.session) frames

end Calculator
