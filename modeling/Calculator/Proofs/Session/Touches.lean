import Calculator.Keyboard
import Calculator.Proofs.Session.Runs
import Calculator.Session.History
/- Events told by touches, the labels of the keys that they stand for. A label presses
   the key of each touch (`keys_eq_touches`), so typing frame by frame is a session in
   which the touches are pressed one by one (`typeEach_getElem?`). How the events are
   dealt out to frames, and how a text is cut into texts, is not seen in the touches
   (`touches_pieces`). -/
namespace Calculator

/-- The label of the key that a key of the keyboard stands for. -/
def Keycap.label? : Keycap → Option String
  | .enter => some "="
  | .backspace => some "DEL"
  | .escape => some "C"
  | _ => none

namespace Event

/-- The labels that an event stands for, in order. -/
def touches : Event → List String
  | .text s => (s.toList.filter fun c => typeable.contains c).map String.singleton
  | .stroke k => if k.pressed then k.cap.label?.toList else []
  | _ => []

/-- A text cut into its characters; nothing else can be cut. -/
def pieces : Event → List Event
  | .text s => s.toList.map fun c => .text (String.singleton c)
  | e => [e]

end Event

/-- No character that can be typed is the label of another key. -/
theorem ofLabel_typeable {c : Char} (h : c ∈ typeable) :
    Key.ofLabel (String.singleton c) = .insert (String.singleton c) := by
  have hall : typeable.all (fun d =>
      Key.ofLabel (String.singleton d) = .insert (String.singleton d)) = true := by decide
  exact of_decide_eq_true (List.all_eq_true.mp hall c h)

theorem keys_eq_touches (e : Event) : e.keys = e.touches.map Key.ofLabel := by
  cases e with
  | text s =>
    show _ = ((s.toList.filter fun c => typeable.contains c).map String.singleton).map _
    rw [List.map_map]
    apply List.map_congr_left
    intro c hc
    have hc : c ∈ typeable := by simpa using (List.mem_filter.mp hc).2
    exact (ofLabel_typeable hc).symm
  | stroke k =>
    obtain ⟨cap, pressed, repeated, shift⟩ := k
    cases pressed with
    | false => rfl
    | true => cases cap <;> rfl
  | _ => rfl

theorem flatMap_keys (es : List Event) :
    es.flatMap Event.keys = (es.flatMap Event.touches).map Key.ofLabel := by
  rw [List.map_flatMap]
  exact congrArg (es.flatMap ·) (funext keys_eq_touches)

namespace Session

/-- The session after these touches, pressed one by one from the start. -/
def touched (touches : List String) : Session := .after (touches.map .label)

theorem touched_eq (as : List String) : touched as = empty.pressAll (as.map Key.ofLabel) := by
  unfold touched after pressAll
  rw [List.foldl_map, List.foldl_map]
  rfl

theorem touched_append (as bs : List String) :
    touched (as ++ bs) = (touched as).pressAll (bs.map Key.ofLabel) := by
  rw [touched_eq, touched_eq, List.map_append, pressAll_append]

theorem type_touched (as : List String) (es : List Event) :
    (touched as).type es = touched (as ++ es.flatMap Event.touches) := by
  rw [type, flatMap_keys, touched_append]

theorem foldl_type (as : List String) (frames : List (List Event)) :
    frames.foldl type (touched as) = touched (as ++ frames.flatten.flatMap Event.touches) := by
  induction frames generalizing as with
  | nil => rw [List.flatten_nil, List.flatMap_nil, List.append_nil]; rfl
  | cons frame frames ih =>
    rw [List.foldl_cons, type_touched, ih, List.append_assoc, List.flatten_cons, List.flatMap_append]

/-- After each frame the session is what its touches make of it. -/
theorem typeEach_getElem? (before : List (List Event)) (frame : List Event)
    (rest : List (List Event)) :
    (empty.typeEach (before ++ frame :: rest))[before.length]? =
      some (touched ((before ++ [frame]).flatten.flatMap Event.touches)) := by
  have hrun := foldl_type [] (before ++ [frame])
  rw [List.nil_append, List.foldl_append] at hrun
  rw [getElem?_each type type typeEach fun _ _ _ => rfl]
  exact congrArg some hrun

end Session

/-! ## Pieces -/

theorem touches_pieces (es : List Event) :
    (es.flatMap Event.pieces).flatMap Event.touches = es.flatMap Event.touches := by
  rw [List.flatMap_assoc]
  congr 1
  funext e
  cases e with
  | text s =>
    show (s.toList.map _).flatMap _ = (s.toList.filter _).map _
    induction s.toList with
    | nil => rfl
    | cons c cs ih =>
      rw [List.map_cons, List.flatMap_cons, ih, List.filter_cons, Event.touches,
        String.toList_singleton, List.filter_cons]
      split <;> rfl
  | _ => simp [Event.pieces]

/-- A text has no strokes, cut or whole. -/
theorem strokes_pieces (es : List Event) :
    (es.flatMap Event.pieces).filterMap Event.down? = es.filterMap Event.down? := by
  induction es with
  | nil => rfl
  | cons e es ih =>
    rw [List.flatMap_cons, List.filterMap_append, ih, ← List.singleton_append,
      List.filterMap_append]
    congr 1
    cases e with
    | text s =>
      show (s.toList.map _).filterMap _ = []
      rw [List.filterMap_map]
      exact List.filterMap_eq_nil_iff.mpr fun _ _ => rfl
    | _ => rfl

end Calculator
