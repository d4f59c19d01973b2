import Calculator.Number
import Calculator.Token.Lexeme
/- The characters of number texts. A decimal in positional notation is written
   with the characters of a run only, so what the result line shows is a run,
   signed or not, or one of the three words for what is not finite
   (`resultText_cases`). No result has an exponent or can be taken for the word
   that stands for an error. -/
namespace Calculator

namespace Decimal

theorem repr_run (n : Nat) : ∀ c ∈ n.repr.toList, Lexeme.isRunChar c = true := by
  intro c hc
  rw [Nat.toList_repr] at hc
  have hd : c.isDigit = true := Nat.isDigit_of_mem_toDigits (by decide) (by decide) hc
  simp [Lexeme.isRunChar, hd]

theorem lowDigits_digits (k n : Nat) : ∀ c ∈ lowDigits k n, c.isDigit = true := by
  induction k generalizing n with
  | zero => simp [lowDigits]
  | succ k ih =>
    intro c hc
    rw [lowDigits, List.mem_cons] at hc
    rcases hc with rfl | h
    · rw [Nat.isDigit_digitChar, decide_eq_true_eq]
      omega
    · exact ih _ c h

/-- Behind the point stand digits only. -/
theorem fraction_digits (d : Decimal) : ∀ c ∈ d.fraction, c.isDigit = true := by
  intro c hc
  rw [fraction, List.mem_reverse] at hc
  exact lowDigits_digits _ _ c ((List.dropWhile_sublist _).mem hc)

theorem fraction_run (d : Decimal) : ∀ c ∈ d.fraction, Lexeme.isRunChar c = true := by
  intro c hc
  simp [Lexeme.isRunChar, d.fraction_digits c hc]

/-- A decimal is written in digits and points. -/
theorem text_run (d : Decimal) : ∀ c ∈ d.text.toList, Lexeme.isRunChar c = true := by
  have hwhole := repr_run (d.digits / Nat.pow 10 d.places)
  unfold text
  cases hf : d.fraction with
  | nil => exact hwhole
  | cons e es =>
    intro c hc
    have hfraction := d.fraction_run c
    rw [hf] at hfraction
    simp only [String.toList_append, String.toList_ofList, List.mem_append] at hc
    rcases hc with (h | h) | h
    · exact hwhole c h
    · obtain rfl : c = '.' := by simpa using h
      decide
    · exact hfraction h

end Decimal

namespace Number

/-- The words of the results that are not finite. -/
def words : List String := ["NaN", "inf", "-inf"]

theorem text_cases (x : Float) :
    (∃ negative run, text x = signed negative run ∧
      ∀ c ∈ run.toList, Lexeme.isRunChar c = true) ∨ text x ∈ words := by
  unfold text
  split
  · right; decide
  · split
    · left; exact ⟨_, _, rfl, Decimal.text_run _⟩
    · right
      cases Binary64.isNegative x <;> decide

/-- What the result line shows is a run of digits and points, signed or not, or
    one of the words. -/
theorem resultText_cases (x : Float) :
    (∃ negative run, resultText x = signed negative run ∧
      ∀ c ∈ run.toList, Lexeme.isRunChar c = true) ∨ resultText x ∈ words := by
  unfold resultText
  split
  · left; exact ⟨_, _, rfl, Decimal.repr_run _⟩
  · exact text_cases x

end Number
end Calculator
