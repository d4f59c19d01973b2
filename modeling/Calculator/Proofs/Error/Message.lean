import Calculator.Error
/- Messages. Each kind of error begins with a letter of its own
   (`message_head`), and the character or the run that a message names can be
   read off it, so equal messages are of equal errors (`message_injective`). -/
namespace Calculator

theorem head?_append {s t : String} {c : Char} (h : s.toList.head? = some c) :
    (s ++ t).toList.head? = some c := by
  rw [String.toList_append, List.head?_append, h]
  rfl

/-- What stands between two texts can be read off the whole. -/
theorem append_append_inj {a b s t : String} (h : a ++ s ++ b = a ++ t ++ b) : s = t := by
  have h := congrArg String.toList h
  rw [String.toList_append, String.toList_append, String.toList_append, String.toList_append,
    List.append_left_inj, List.append_right_inj] at h
  exact String.toList_injective h

namespace Error

/-- The letter with which a message begins. -/
def initial : Error → Char
  | .unexpectedCharacter _ => 'c'
  | .invalidNumber _ => 'n'
  | .unbalancedParentheses => 'p'
  | .missingOperand => 'o'
  | .divisionByZero => 'd'
  | .malformed => 'e'

theorem message_head (k : Error) : k.message.toList.head? = some k.initial := by
  cases k with
  | unexpectedCharacter c =>
    have hc : "caractère inattendu: '".toList.head? = some 'c' := by decide
    exact head?_append (head?_append hc)
  | invalidNumber run =>
    have hn : "nombre invalide: \"".toList.head? = some 'n' := by decide
    exact head?_append (head?_append hn)
  | _ => decide

theorem message_ne_empty (k : Error) : k.message ≠ "" := by
  intro h
  have hhead := k.message_head
  rw [h] at hhead
  cases hhead

theorem message_injective : Function.Injective message := by
  intro k l h
  have hinitial : k.initial = l.initial := by
    have hhead := k.message_head
    rw [h, message_head] at hhead
    exact (Option.some.inj hhead).symm
  cases k with
  | unexpectedCharacter c =>
    cases l with
    | unexpectedCharacter d =>
      have h : String.singleton c = String.singleton d := append_append_inj h
      have h := congrArg String.toList h
      rw [String.toList_singleton, String.toList_singleton] at h
      rw [(List.cons.inj h).1]
    | _ => simp [initial] at hinitial
  | invalidNumber r =>
    cases l with
    | invalidNumber q =>
      have h : r = q := append_append_inj h
      rw [h]
    | _ => simp [initial] at hinitial
  | _ =>
    cases l with
    | _ => first | rfl | simp [initial] at hinitial

end Error
end Calculator
