import Calculator.Proofs.Error.Message
import Calculator.Proofs.Number.Characters
import Calculator.Session.History
/- A session shows its history and nothing else. Each step changes what is shown
   as it changes the history (`shown_take`), and so does a run of steps, however
   edits, evaluations and clearings follow each other. The error line and the
   result line of an evaluation belong together (`outputOf_eq_error_iff`), so
   they do in every session that can be reached (`after_eq_shown`). -/
namespace Calculator

/-! ## Results and errors -/

/-- No result is shown as an error: the word does not start like a number, and it
    is none of the words for numbers that are not finite. -/
theorem Number.resultText_ne_error (x : Float) : resultText x ≠ errorOutput := by
  intro h
  rcases resultText_cases x with ⟨negative, run, hr, hrun⟩ | hw
  · rw [h] at hr
    cases negative with
    | false =>
      obtain rfl : errorOutput = run := hr
      exact absurd (hrun 'E' (by decide)) (by decide)
    | true =>
      have hr := congrArg (fun s => s.toList.head?) hr
      simp [signed, errorOutput] at hr
  · rw [h] at hw
    exact absurd hw (by decide)

namespace History

theorem outputOf_eq_error_iff (r : Except Error Float) :
    outputOf r = errorOutput ↔ errorOf r ≠ "" := by
  cases r with
  | ok x => exact ⟨fun h => absurd h (Number.resultText_ne_error x), fun h => absurd rfl h⟩
  | error k => exact ⟨fun _ => k.message_ne_empty, fun _ => rfl⟩

end History

/-- Evaluating an entry that is not blank replaces the result line, the trace and
    the error at once. -/
theorem Session.equals_of_not_blank {s : Session} (h : Text.allBlank s.entry = false) :
    s.equals = ⟨s.entry, History.outputOf (Evaluation.of s.entry).result,
      (Evaluation.of s.entry).trace, History.errorOf (Evaluation.of s.entry).result⟩ := by
  unfold equals
  rw [h, if_neg Bool.false_ne_true]
  cases hr : (Evaluation.of s.entry).result with
  | ok x => simp [hr, History.outputOf, History.errorOf]
  | error k => simp [hr, History.outputOf, History.errorOf]

namespace History

/-! ## The view -/

theorem shown_entry (h : History) : h.shown.entry = String.ofList h.entry := by
  unfold shown
  cases h.evaluated <;> rfl

/-- The result line, the trace and the error come from the last evaluation. -/
theorem shown_of_evaluated {h g : History} (he : h.evaluated = g.evaluated) :
    h.shown = ⟨String.ofList h.entry, g.shown.output, g.shown.trace, g.shown.error⟩ := by
  unfold shown
  rw [he]
  cases g.evaluated <;> rfl

theorem shown_output_iff (h : History) :
    h.shown.output = errorOutput ↔ h.shown.error ≠ "" := by
  unfold shown
  cases h.evaluated with
  | none =>
    have hw : "" ≠ errorOutput := by decide
    exact ⟨fun h => absurd h hw, fun h => absurd rfl h⟩
  | some cs => exact outputOf_eq_error_iff _

/-! ## Steps -/

theorem shown_equals (h : History) : (h.press .equals).shown = h.shown.equals := by
  have hb : Text.allBlank h.shown.entry = h.entry.all Text.isBlank := by
    rw [shown_entry, Text.allBlank, String.toList_ofList]
  show (if h.entry.all Text.isBlank then h else { h with evaluated := some h.entry }).shown = _
  cases hc : h.entry.all Text.isBlank with
  | true =>
    rw [hc] at hb
    unfold Session.equals
    rw [hb]
    rfl
  | false =>
    rw [hc] at hb
    rw [Session.equals_of_not_blank hb, shown_entry]
    rfl

/-- Each step changes what is shown as it changes the history. -/
theorem shown_take (h : History) (step : Session.Step) :
    (h.take step).shown = h.shown.take step := by
  cases step with
  | press key =>
    cases key with
    | clear => rfl
    | delete =>
      rw [shown_of_evaluated (h := h.take (.press .delete)) (g := h) rfl]
      show _ = (⟨String.ofList h.shown.entry.toList.dropLast, _, _, _⟩ : Session)
      rw [shown_entry, String.toList_ofList]
      rfl
    | equals => exact h.shown_equals
    | insert text =>
      rw [shown_of_evaluated (h := h.take (.press (.insert text))) (g := h) rfl]
      show (⟨String.ofList (h.entry ++ text.toList), _, _, _⟩ : Session) =
        ⟨h.shown.entry ++ text, _, _, _⟩
      rw [shown_entry, String.ofList_append, String.ofList_toList]
  | set entry =>
    rw [shown_of_evaluated (h := h.take (.set entry)) (g := h) rfl]
    show (⟨String.ofList entry.toList, _, _, _⟩ : Session) = ⟨entry, _, _, _⟩
    rw [String.ofList_toList]

/-! ## Moves -/

/-- A label does to the history what its key does; the empty one writes nothing. -/
theorem take_step (h : History) (m : Move) : h.take m.step = h.move m := by
  cases m with
  | label text =>
    by_cases hclear : text = "C"
    · subst hclear; rfl
    by_cases hdelete : text = "DEL"
    · subst hdelete; rfl
    by_cases hequals : text = "="
    · subst hequals; rfl
    have hkey : Key.ofLabel text = .insert text := by
      simp only [Key.ofLabel, if_neg hclear, if_neg hdelete, if_neg hequals]
    show h.press (Key.ofLabel text) = _
    rw [hkey, move, if_neg hclear, if_neg hdelete, if_neg hequals]
    by_cases hempty : text = ""
    · rw [if_pos hempty, hempty]
      show (⟨h.entry ++ [], h.evaluated⟩ : History) = h
      rw [List.append_nil]
    · rw [if_neg hempty]
      rfl
  | set entry => rfl

theorem after_concat (moves : List Move) (m : Move) :
    after (moves ++ [m]) = (after moves).move m := by
  rw [after, List.foldl_append]
  rfl

/-- An edit leaves the last evaluation as it is. -/
theorem move_evaluated {m : Move} (hm : m.Edits) (h : History) :
    (h.move m).evaluated = h.evaluated := by
  cases m with
  | label text =>
    obtain ⟨hclear, hequals⟩ := hm
    unfold move
    dsimp only
    rw [if_neg hclear, if_neg hequals]
    split
    · rfl
    · split <;> rfl
  | set entry => rfl

theorem move_equals_entry (h : History) : (h.move (.label "=")).entry = h.entry := by
  show (if h.entry.all Text.isBlank then h else { h with evaluated := some h.entry }).entry = _
  split <;> rfl

end History

/-! ## Runs -/

theorem Session.foldl_shown (h : History) (moves : List Move) :
    moves.foldl (fun s m => s.take m.step) h.shown = (moves.foldl History.move h).shown := by
  induction moves generalizing h with
  | nil => rfl
  | cons m moves ih =>
    rw [List.foldl_cons, List.foldl_cons, ← h.shown_take, h.take_step]
    exact ih _

/-- After any moves a session is what its history shows. So it shows an error
    line if and only if the result line says so, evaluating leaves the entry as it
    is, and an edit leaves everything else. -/
theorem Session.after_eq_shown (moves : List Move) :
    after moves = (History.after moves).shown ∧
    ((after moves).output = errorOutput ↔ (after moves).error ≠ "") ∧
    (after (moves ++ [.label "="])).entry = (after moves).entry ∧
    ∀ m : Move, m.Edits →
      (after (moves ++ [m])).output = (after moves).output ∧
      (after (moves ++ [m])).trace = (after moves).trace ∧
      (after (moves ++ [m])).error = (after moves).error := by
  have hshown (moves : List Move) : after moves = (History.after moves).shown :=
    foldl_shown .empty moves
  refine ⟨hshown moves, ?_, ?_, fun m hm => ?_⟩
  · rw [hshown]
    exact History.shown_output_iff _
  · rw [hshown, hshown, History.after_concat, History.shown_entry, History.shown_entry,
      History.move_equals_entry]
  · rw [hshown, hshown, History.after_concat,
      History.shown_of_evaluated (History.move_evaluated hm (History.after moves))]
    exact ⟨rfl, rfl, rfl⟩

end Calculator
