import Calculator.Screen.Toolkit
/- A toolkit whose keyboard moves a focus: the one target, if any, that the keyboard
   can push. Tab takes it round the targets, forwards or with shift backwards, an arrow
   to the nearest target that way, and Escape or a click elsewhere takes it off. Space
   and Enter push the target that has it.

   `nearest` is where an arrow leads, `Focus.step` what a frame makes of the focus, and
   `Focus.toolkit` reports the targets that are clicked and the one that is pushed. -/
namespace Calculator

/-- A place on the screen: from `left` to `right` and from `top` to `bottom`. -/
structure Box where
  left : Int
  right : Int
  top : Int
  bottom : Int
  deriving DecidableEq

/-- Keys are 64 wide and 52 high, with 8 between them. Lengths are in points, from the
    upper left corner of the pad. -/
def Target.box : Target → Box
  | .key label =>
    let row := Keypad.rows.findIdx fun labels => labels.contains label
    let column := (Keypad.rows.getD row []).idxOf label
    ⟨72 * column, 72 * column + 64, 60 * row, 60 * row + 52⟩
  | .header => ⟨0, 78, 330, 348⟩

/-- How far the range from `a` to `b` stands behind that from `c` to `d`, as
    twice the distance of their middles. Ranges that share half of the shorter
    one stand level. -/
def lag (a b c d : Int) : Int :=
  if min (b - a) (d - c) ≤ 2 * (min b d - max a c) then 0 else (a + b) - (c + d)

/-- The way from the middle of one target to that of another, doubled: to the
    right and down. -/
def Target.way (origin t : Target) : Int × Int :=
  let a := t.box
  let b := origin.box
  (lag a.left a.right b.left b.right, lag a.top a.bottom b.top b.bottom)

/-- How far a way leads in a direction. -/
def Direction.along : Direction → Int × Int → Int
  | .up, w => -w.2
  | .down, w => w.2
  | .left, w => -w.1
  | .right, w => w.1

/-- The square of the length of a way. -/
def square (w : Int × Int) : Int := w.1 * w.1 + w.2 * w.2

/-- Whether a way leads in a direction, at most half a right angle off. -/
def Direction.leads (d : Direction) (w : Int × Int) : Bool :=
  0 < d.along w && square w ≤ 2 * (d.along w * d.along w)

/-- Whether one way is shorter than another once each is lengthened by the
    square of its slant, which is length over distance along `d`. -/
def Direction.prefers (d : Direction) (v w : Int × Int) : Bool :=
  let fourth (n : Int) := n * n * (n * n)
  let cube (n : Int) := n * n * n
  cube (square v) * fourth (d.along w) < cube (square w) * fourth (d.along v)

/-- The nearest target in a direction. -/
def nearest (d : Direction) (origin : Target) : Option Target :=
  (Target.all.filter fun t => d.leads (origin.way t)).foldl (fun best t =>
    match best with
    | none => some t
    | some b => if d.prefers (origin.way t) (origin.way b) then some t else some b) none

/-- The target after this one, none after the last. -/
def Target.after? (t : Target) : Option Target :=
  (all.dropWhile (· ≠ t)).tail.head?

/-- The target before this one, none before the first. -/
def Target.before? (t : Target) : Option Target :=
  (all.reverse.dropWhile (· ≠ t)).tail.head?

/-- Where the focus is sent. -/
inductive Motion
  | stay
  | next
  | previous
  | toward (d : Direction)
  deriving DecidableEq

/-- The focus, and where it is sent, after a stroke. Of several motions in a
    frame the last one counts. -/
def Motion.request (s : Option Target × Motion) (k : Stroke) : Option Target × Motion :=
  match k.cap with
  | .tab => (s.1, if k.shift then .previous else .next)
  | .arrow d => (s.1, .toward d)
  | .escape => (none, .stay)
  | _ => s

/-- Whether a key pushes the target that has the focus. -/
def Keycap.pushes : Keycap → Bool
  | .enter => true
  | .space => true
  | _ => false

namespace Focus

/-- The target that has the focus in a frame in which it is sent on. Forwards
    it gets there in the same frame, but for the way round from the last
    target; backwards it gets there after the frame. -/
def during (focus : Option Target) : Motion → Option Target
  | .next =>
    match focus with
    | none => Target.all.head?
    | some t => t.after?
  | .previous =>
    match focus with
    | none => Target.all.getLast?
    | some t => some t
  | _ => focus

/-- The target that has the focus after a frame, when `kept` is what the clicks
    of the frame left of it. -/
def following (focus kept : Option Target) : Motion → Option Target
  | .next =>
    match focus with
    | some t => if t.after? = none then Target.all.head? else kept
    | none => kept
  | .previous =>
    match focus with
    | some t => if t.before? = none then Target.all.getLast? else t.before?
    | none => kept
  | .toward d =>
    match kept with
    | some t => if nearest d t = none then some t else nearest d t
    | none => none
  | .stay => kept

/-- What a frame makes of the focus. -/
structure Outcome where
  pushed : Option Target
  focus : Option Target
  deriving DecidableEq

/-- The strokes that go down in a frame act before its clicks. -/
def step (focus : Option Target) (strokes : List Stroke) (clicks : List Target) : Outcome :=
  let sent := strokes.foldl Motion.request (focus, .stay)
  let held := during sent.1 sent.2
  let kept := if clicks.all fun t => held = some t then held else none
  ⟨if strokes.any fun k => k.cap.pushes then held else none, following sent.1 kept sent.2⟩

/-- What the inputs of a frame make of the focus. -/
def outcome (focus : Option Target) (inputs : List Input) : Outcome :=
  step focus ((Input.events inputs).filterMap Event.down?) (Input.clicks inputs)

/-- What the toolkit keeps from frame to frame. -/
structure State where
  focus : Option Target
  panelOpen : Bool
  deriving DecidableEq

/-- The targets that are clicked, and the one that is pushed. -/
def State.clicked (c : State) (inputs : List Input) (t : Target) : Bool :=
  (outcome c.focus inputs).pushed = some t || (Input.clicks inputs).contains t

/-- Nothing has the focus at first, and the panel is shut. A click on its header folds
    the panel open or shut. -/
def toolkit : Toolkit State where
  start := ⟨none, false⟩
  clicked := State.clicked
  next c inputs := ⟨(outcome c.focus inputs).focus, c.panelOpen ^^ c.clicked inputs .header⟩
  panelOpen := State.panelOpen

end Focus
end Calculator
