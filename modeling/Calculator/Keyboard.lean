import Calculator.Session
/- The keyboard of the calculator: which keys an event presses. -/
namespace Calculator

/-- The way an arrow points. -/
inductive Direction
  | up
  | down
  | left
  | right
  deriving DecidableEq

/-- The keys of a keyboard, apart where they are used. -/
inductive Keycap
  | enter
  | backspace
  | escape
  | tab
  | space
  | arrow (d : Direction)
  | other (name : String)
  deriving DecidableEq

/-- The key with this name; some keys go by more than one. -/
def Keycap.ofName (name : String) : Keycap :=
  match name with
  | "Enter" | "Return" => .enter
  | "Backspace" => .backspace
  | "Escape" | "Esc" => .escape
  | "Tab" => .tab
  | "Space" | " " => .space
  | "ArrowUp" | "Up" | "⏶" => .arrow .up
  | "ArrowDown" | "Down" | "⏷" => .arrow .down
  | "ArrowLeft" | "Left" | "⏴" => .arrow .left
  | "ArrowRight" | "Right" | "⏵" => .arrow .right
  | _ => .other name

/-- A key of the keyboard that goes down, repeats or comes up. -/
structure Stroke where
  cap : Keycap
  pressed : Bool
  repeated : Bool
  shift : Bool
  deriving DecidableEq

inductive Event
  | text (s : String)
  | stroke (k : Stroke)
  | paste (s : String)
  | copy
  | cut
  | focus (gained : Bool)
  deriving DecidableEq

/-- The characters that can be typed. -/
def typeable : List Char := "0123456789.+-*/^()".toList

/-- The key of the calculator that a key of the keyboard stands for. -/
def Keycap.key? : Keycap → Option Key
  | .enter => some .equals
  | .backspace => some .delete
  | .escape => some .clear
  | _ => none

/-- The keys that an event presses, in order: one for each typeable character
    of a text, one for a stroke that goes down. -/
def Event.keys : Event → List Key
  | .text s => (s.toList.filter fun c => typeable.contains c).map fun c =>
      .insert (String.singleton c)
  | .stroke k => if k.pressed then k.cap.key?.toList else []
  | _ => []

/-- The stroke of a key that goes down. -/
def Event.down? : Event → Option Stroke
  | .stroke k => if k.pressed then some k else none
  | _ => none

namespace Session

/-- The session after the events of a frame. -/
def type (s : Session) (events : List Event) : Session :=
  s.pressAll (events.flatMap Event.keys)

/-- The session after each frame. -/
def typeEach (s : Session) : List (List Event) → List Session
  | [] => []
  | frame :: frames => s.type frame :: (s.type frame).typeEach frames

end Session
end Calculator
