import Calculator.Proofs.Error.Message
import Calculator.Proofs.Evaluation.Story
import Calculator.Proofs.Session.Runs
import Calculator.Session.History
/- The log of a session. A move notes something exactly if it is the key that
   evaluates and the entry is not blank, and then it notes what that evaluation does
   and one record more if it fails (`logged`). Which move of a run it is changes
   nothing about that but the session that the moves before it lead to
   (`recordsEach_getElem?`). Together with the story of each evaluation, the log, the
   trace and the error line never tell of different stages (`stages_told`). -/
namespace Calculator
namespace Session

/-- What a move in the session `s` notes in the log. -/
structure Logged (s : Session) (m : Move) (records : List Record) : Prop where
  some_iff : records ≠ [] ↔ m = .label "=" ∧ Text.allBlank s.entry = false
  valued : ∀ v, records ≠ [] → (Evaluation.of s.entry).result = .ok v →
    records = (Evaluation.of s.entry).records
  failed : ∀ k, records ≠ [] → (Evaluation.of s.entry).result = .error k →
    records = (Evaluation.of s.entry).records ++ [.entryFailed s.entry k]

theorem Logged.nothing {s : Session} {m : Move}
    (h : ¬ (m = .label "=" ∧ Text.allBlank s.entry = false)) : Logged s m [] where
  some_iff := ⟨fun hne => absurd rfl hne, fun hm => absurd hm h⟩
  valued _ hne := absurd rfl hne
  failed _ hne := absurd rfl hne

/-- The records of an evaluation that a key starts, and one more of its failure. -/
theorem Logged.evaluation {s : Session} (h : Text.allBlank s.entry = false) :
    Logged s (.label "=") ((Evaluation.of s.entry).records ++
      entryRecord s.entry (Evaluation.of s.entry).result) where
  some_iff := by
    have hne := (Evaluation.story_of s.entry).records_ne_nil
    simp [hne, h]
  valued v _ hv := by rw [hv]; exact List.append_nil _
  failed k _ hk := by rw [hk]; rfl

theorem logged (s : Session) (m : Move) : Logged s m (s.stepRecords m.step) := by
  cases m with
  | set entry => exact .nothing (by simp)
  | label text =>
    by_cases ht : text = "="
    · subst ht
      have hrecords : s.stepRecords (Move.label "=").step =
          if Text.allBlank s.entry then []
          else (Evaluation.of s.entry).records ++
            entryRecord s.entry (Evaluation.of s.entry).result := rfl
      rw [hrecords]
      cases hb : Text.allBlank s.entry with
      | true => exact .nothing (by simp [hb])
      | false => exact .evaluation hb
    · have hrecords : s.records (Key.ofLabel text) = [] := by
        unfold Key.ofLabel
        rw [if_neg ht]
        split
        · rfl
        · split <;> rfl
      show Logged s (.label text) (s.records (Key.ofLabel text))
      rw [hrecords]
      exact .nothing (by simp [ht])

/-- The records of a move in a run are those of the session it finds. -/
theorem recordsEach_getElem? (before : List Move) (m : Move) (rest : List Move) :
    (empty.recordsEach ((before ++ m :: rest).map Move.step))[before.length]? =
      some ((after before).stepRecords m.step) := by
  have hentry := getElem?_each take stepRecords recordsEach (fun _ _ _ => rfl) empty
    (before.map Move.step) m.step (rest.map Move.step)
  rw [List.length_map, List.foldl_map] at hentry
  rw [List.map_append, List.map_cons]
  exact hentry

end Session

/-- Result, trace and records of an evaluation are those of the stages it got to; for
    a text that is not blank the trace tells the stage, and the message of an error
    tells the error. In a session each move notes the records of the evaluation it
    starts, with one more if that fails, and nothing if it starts none. -/
theorem stages_told :
    (∀ s, Evaluation.Story s (.of s)) ∧
    (∀ s, Text.allBlank s = false → Evaluation.Telling s (.of s)) ∧
    (∀ k l : Error, k.message = l.message → k = l) ∧
    ∀ (before : List Move) (m : Move) (rest : List Move), ∃ records,
      (Session.empty.recordsEach ((before ++ m :: rest).map Move.step))[before.length]? =
        some records ∧
      Session.Logged (.after before) m records := by
  refine ⟨Evaluation.story_of, fun s => (Evaluation.story_of s).telling,
    fun k l h => Error.message_injective h, fun before m rest => ?_⟩
  exact ⟨_, Session.recordsEach_getElem? before m rest, Session.logged _ _⟩

/-- Nothing but parentheses has tokens and no postfix order to show, and no value. -/
theorem stages_told_parens :
    Text.allBlank "( ())" = false ∧ (Evaluation.of "( ())").result = .error .malformed ∧
    (Evaluation.of "( ())").trace.tokens ≠ "" ∧ (Evaluation.of "( ())").trace.rpn = "" := by
  have hb : Text.allBlank "( ())" = false := by decide +kernel
  have hts : Token.ofText "( ())" = .ok [.lparen, .lparen, .rparen, .rparen] :=
    eq_ok_of_toOption (by decide +kernel)
  have hrpn : Postfix.ofTokens [.lparen, .lparen, .rparen, .rparen] = .ok [] := by decide +kernel
  have hparens : OnlyParens "( ())" := (Evaluation.rpn_eq_nil_iff hts hrpn).mp rfl
  have htelling := stages_told.2.1 "( ())" hb
  have htexts := htelling.rpn.mpr (.inr hparens)
  exact ⟨hb, htelling.parens hparens, htexts.1, htexts.2⟩

end Calculator
