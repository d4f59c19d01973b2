import Calculator.Keyboard
import Calculator.Proofs.Evaluation.Story
/- Texts of typeable characters. A character that can be typed is a digit, a point or a
   symbol of expressions, and it is not blank (`run_or_symbol_of_typeable`,
   `not_blank_of_typeable`). So only a run can be wrong in what is typed
   (`Typed.ofText_error`), and of all errors one never comes up, the character outside
   the alphabet (`Typed.evaluate_error`). -/
namespace Calculator
open Lexeme

/-! ## Characters -/

theorem run_or_symbol_of_typeable {c : Char} (h : c ∈ typeable) :
    isRunChar c = true ∨ (symbol c).Sound := by
  have hall : typeable.all (fun d =>
      isRunChar d || ['+', '-', '*', '/', '^', '(', ')'].contains d) = true := by decide
  simpa [Sound] using List.all_eq_true.mp hall c h

theorem not_blank_of_typeable {c : Char} (h : c ∈ typeable) : Text.isBlank c = false := by
  have hall : typeable.all (fun d => !Text.isBlank d) = true := by decide
  simpa using List.all_eq_true.mp hall c h

/-- A text in which nothing stands that cannot be typed. -/
def Typed (s : String) : Prop := ∀ c ∈ s.toList, c ∈ typeable

namespace Typed

variable {s : String}

/-- The only blank text of this kind is the empty one. -/
theorem allBlank_iff (h : Typed s) : Text.allBlank s = true ↔ s = "" := by
  constructor
  · intro hblank
    have hall : ∀ c ∈ s.toList, Text.isBlank c = true := by simpa [Text.allBlank] using hblank
    have hnil : s.toList = [] := by
      apply List.eq_nil_iff_forall_not_mem.mpr
      intro c hc
      have hno := not_blank_of_typeable (h c hc)
      simp [hall c hc] at hno
    simpa using hnil
  · rintro rfl
    rfl

/-! ## Errors -/

/-- What is not sound in the text is a run. -/
theorem run_of_not_sound (h : Typed s) {l : Lexeme} (hl : l ∈ ofChars (Token.written s))
    (hno : ¬ l.Sound) : ∃ r, l = run r ∧ (run r).Formed := by
  have hformed : l.Formed := Token.formed_written s l hl
  cases l with
  | run r => exact ⟨r, rfl, hformed⟩
  | symbol c =>
    have hwritten : c ∈ Token.written s := by
      rw [← flatMap_chars_ofChars (Token.written s)]
      exact List.mem_flatMap.mpr ⟨symbol c, hl, by simp [chars]⟩
    have hc : c ∈ typeable := h c (List.mem_filter.mp hwritten).1
    rcases run_or_symbol_of_typeable hc with hrun | hsound
    · have hsymbol : isRunChar c = false := hformed
      simp [hsymbol] at hrun
    · exact absurd hsound hno

/-- It cannot be read only for a run of digits and points that is no number. -/
theorem ofText_error (h : Typed s) {k : Error} (hk : Token.ofText s = .error k) :
    ∃ r, k = .invalidNumber (String.ofList r) ∧ (run r).Formed := by
  rcases all_sound_or_first (ofChars (Token.written s)) with hall | ⟨before, l, after, he, hb, hl⟩
  · obtain ⟨ts, hts⟩ := Token.ofText_of_sound hall
    simp [hts] at hk
  · obtain ⟨r, rfl, hformed⟩ := h.run_of_not_sound (l := l) (by simp [he]) hl
    rw [Token.ofText_of_offence he hb hl] at hk
    exact ⟨r, (Except.error.inj hk).symm, hformed⟩

end Typed

/-- The errors that what is typed can have. -/
def Error.OfTyped : Error → Prop
  | .unexpectedCharacter _ => False
  | .invalidNumber r => (run r.toList).Formed
  | _ => True

theorem Typed.evaluate_error {s : String} (h : Typed s) {k : Error}
    (hk : (Evaluation.of s).result = .error k) : k.OfTyped := by
  have hstory := Evaluation.story_of s
  generalize Evaluation.of s = e at hstory hk
  cases hstory with
  | unread hts =>
    cases hk
    obtain ⟨r, rfl, hformed⟩ := h.ofText_error hts
    simpa [Error.OfTyped] using hformed
  | unordered => cases hk; trivial
  | valued => cases hk
  | unvalued hts hrpn hv =>
    cases hk
    have hparen := (Postfix.ofTokens_eq_ok_iff.mp hrpn).not_paren
    rcases Postfix.value_error hparen hv with rfl | rfl | rfl <;> trivial

end Calculator
