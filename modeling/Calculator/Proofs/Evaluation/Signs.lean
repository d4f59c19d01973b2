import Calculator.Proofs.Postfix.Contents
import Calculator.Proofs.Token.Neighbours
/- Signs in numbers and signs on their own. A negative number can be written as a sign
   and the number without it, which is how it was read (`ofLexemes_signBefore`). The
   sign then waits, and goes out directly behind its number, as long as the operand
   ends there: no operator is written out by a sign, and every token that can follow
   an operand writes it out first (`run_sign`, `run_waiting_sign`). So the postfix
   orders differ by no more than the tokens do (`run_signBefore`), and the stack
   machine takes a number and a sign behind it for the negative number
   (`run_signBehind`). Whether signs are taken into numbers is seen in no result
   (`signs_apart_agree`). -/
namespace Calculator
open Binary64 Token

namespace Token

/-- A negative number as a sign and the number without it; other tokens stay. -/
def signBefore : Token → List Token
  | .num x => if isNegative x then [.op .neg, .num (-x)] else [.num x]
  | t => [t]

/-- The same in postfix order, where the sign stands behind the number. -/
def signBehind : Token → List Token
  | .num x => if isNegative x then [.num (-x), .op .neg] else [.num x]
  | t => [t]

theorem flatMap_signBehind {ts : List Token} (h : ∀ t ∈ ts, t.isNumber = false) :
    ts.flatMap signBehind = ts := by
  have hsame : ∀ t ∈ ts, signBehind t = [t] := by
    intro t ht
    have hno := h t ht
    cases t with
    | num x => cases hno
    | _ => rfl
  rw [List.flatMap_congr hsame, List.flatMap_singleton']

/-- A negative number, or a token that both leave as it is. -/
theorem negative_or_plain (t : Token) :
    (∃ x, t = .num x ∧ signBefore t = [.op .neg, .num (-x)] ∧
      signBehind t = [.num (-x), .op .neg] ∧ isNegative x = true) ∨
    (signBefore t = [t] ∧ signBehind t = [t]) := by
  cases t with
  | num x =>
    cases hx : isNegative x with
    | true => exact .inl ⟨x, rfl, by simp [signBefore, hx], by simp [signBehind, hx], hx⟩
    | false => exact .inr ⟨by simp [signBefore, hx], by simp [signBehind, hx]⟩
  | _ => exact .inr ⟨rfl, rfl⟩

/-! ## Reading -/

/-- Numbers that had no sign have none once the signs are put before them again. -/
theorem signBefore_fuseSigns {ts : List Token}
    (h : ∀ x, .num x ∈ ts → isFinite x = true ∧ isNegative x = false) :
    (fuseSigns ts).flatMap signBefore = ts := by
  induction ts using fuseSigns.induct with
  | case1 x ts ih =>
    obtain ⟨hfinite, hplain⟩ := h x (by simp)
    obtain ⟨-, hneg⟩ := Number.neg_bounds hfinite hplain
    have hx : signBefore (.num (-x)) = [.op .neg, .num x] := by
      simp [signBefore, hneg, neg_neg_of_isFinite hfinite]
    rw [fuseSigns, List.flatMap_cons, hx, ih fun y hy => h y (by simp [hy])]
    rfl
  | case2 t ts hno ih =>
    have ht : signBefore t = [t] := by
      rcases negative_or_plain t with ⟨x, rfl, -, -, hneg⟩ | ⟨ht, -⟩
      · have hplain := (h x (by simp)).2
        simp [hneg] at hplain
      · exact ht
    rw [fuseSigns, List.flatMap_cons, ht, ih fun y hy => h y (by simp [hy])]
    · rfl
    · exact hno
  | case3 => rfl

/-- With its signs put before the numbers again, a text has the tokens of its lexemes. -/
theorem ofLexemes_signBefore {s : String} {ts : List Token} (h : ofText s = .ok ts) :
    ofLexemes false (Lexeme.ofText s) = .ok (ts.flatMap signBefore) := by
  rw [ofText] at h
  obtain ⟨us, hus, h⟩ := bind_eq_ok_iff.mp h
  cases h
  have hcut : Lexeme.Cut _ (Lexeme.ofText s) := Lexeme.cut_iff.mpr rfl
  have hread : ofLexemes (afterOperand none) (Lexeme.ofText s) = .ok us := hus
  have hsingle := chained_ofLexemes hcut (fun _ _ => rfl) hread
  rw [hus, signBefore_fuseSigns]
  intro x hx
  obtain ⟨p, hp⟩ := hsingle.of_mem hx
  exact ⟨hp.finite x rfl, hp.plain x rfl⟩

/-- Directly after every negative number the operand ends: with an operator between
    two operands, with a closing parenthesis, or with the list. -/
def NegativesEnd (ts : List Token) : Prop :=
  ∀ x t, isNegative x = true → [.num x, t] <:+: ts → follows true t = true

theorem NegativesEnd.tail {t : Token} {ts : List Token} (h : NegativesEnd (t :: ts)) :
    NegativesEnd ts :=
  fun x u hx hu => h x u hx (List.infix_cons hu)

/-- Of what is read only an opening parenthesis can go on where a number ends. -/
theorem Readable.negativesEnd {ts : List Token} (h : Readable ts)
    (hp : ∀ x, isNegative x = true → ¬ [.num x, .lparen] <:+: ts) : NegativesEnd ts := by
  intro x t hx ht
  rcases t with y | (b | _) | _ | _
  case num => exact absurd ht (h.apart x y)
  case op.neg => simpa [endsOperand] using h.sign _ ht
  case lparen => exact absurd ht (hp x hx)
  all_goals rfl

end Token

namespace Postfix
open Token

/-! ## Reordering -/

/-- A sign writes nothing out. -/
theorem run_sign (p : Pending) (ts : List Token) :
    p.run (.op .neg :: ts) = (⟨.neg :: p.line, p.outer⟩ : Pending).run ts := by
  have hholds : p.Holds Op.neg.level := by
    intro q _
    rcases q with b | _
    · cases b <;> decide
    · decide
  simpa using Pending.run_op .neg [] p ts (by simp) hholds

/-- A sign that waits goes out as soon as its operand ends. -/
theorem run_waiting_sign (line : List Op) (outer : List (List Op)) {ts : List Token}
    (h : ∀ t ∈ ts.head?, follows true t = true) :
    (⟨.neg :: line, outer⟩ : Pending).run ts =
      prepend [.op .neg] ((⟨line, outer⟩ : Pending).run ts) := by
  cases ts with
  | nil =>
    simp only [Pending.run]
    split <;> rfl
  | cons t ts =>
    have ht : follows true t = true := h t rfl
    rw [Pending.run_cons, Pending.run_cons]
    rcases t with x | (b | _) | _ | _
    case op.binary =>
      have hb : Op.neg.precedes (.binary b) = true := by cases b <;> rfl
      simp [Pending.step, hb, bind, Except.bind]
    case rparen =>
      cases outer with
      | nil => rfl
      | cons above outer => simp [Pending.step, bind, Except.bind]
    all_goals simp [follows, isBinary, isClosing] at ht

/-- A sign and a number behind it are one operand. -/
theorem run_signed_number (p : Pending) (x : Float) {ts : List Token}
    (h : ∀ t ∈ ts.head?, follows true t = true) :
    p.run (.op .neg :: .num x :: ts) = prepend [.num x, .op .neg] (p.run ts) := by
  rw [run_sign, Pending.run_num, run_waiting_sign _ _ h, prepend_prepend]
  rfl

/-- Only a negative number writes out a negative number. -/
theorem step_signBehind {p q : Pending} {t : Token} {w : List Token} (ht : signBehind t = [t])
    (h : p.step t = .ok (w, q)) : w.flatMap signBehind = w := by
  rcases num_or_not t with ⟨x, rfl⟩ | hno
  · cases h
    rw [List.flatMap_singleton, ht]
  · exact flatMap_signBehind (step_not_number hno h)

/-- What ends an operand is no number, and stays as it is. -/
theorem head_signBefore {ts : List Token} (h : ∀ t ∈ ts.head?, follows true t = true) :
    ∀ t ∈ (ts.flatMap signBefore).head?, follows true t = true := by
  cases ts with
  | nil => exact h
  | cons t ts =>
    have ht : follows true t = true := h t rfl
    have hplain : signBefore t = [t] := by
      cases t with
      | num x => simp [follows, isBinary, isClosing] at ht
      | _ => rfl
    rw [List.flatMap_cons, hplain]
    exact h

/-- A sign before a number is, in postfix order, a sign directly behind it, from any
    operators that wait on. -/
theorem run_signBefore {ts : List Token} (h : NegativesEnd ts) (p : Pending) :
    p.run (ts.flatMap signBefore) = (·.flatMap signBehind) <$> p.run ts := by
  induction ts generalizing p with
  | nil =>
    rw [List.flatMap_nil, Pending.run]
    split
    · exact congrArg Except.ok (flatMap_signBehind (ops_not_number p.line)).symm
    · rfl
  | cons t ts ih =>
    have ih := ih h.tail
    rw [List.flatMap_cons]
    rcases negative_or_plain t with ⟨x, rfl, hbefore, hbehind, hneg⟩ | ⟨hbefore, hbehind⟩
    · have hend : ∀ u ∈ ts.head?, follows true u = true := by
        intro u hu
        exact h x u hneg (pair_infix_cons.mpr (.inl ⟨rfl, hu⟩))
      have hnum : [Token.num x].flatMap signBehind = [.num (-x), .op .neg] := by simp [hbehind]
      rw [Pending.run_num, flatMap_prepend, hnum, ← ih p, hbefore]
      exact run_signed_number p (-x) (head_signBefore hend)
    · rw [hbefore, List.singleton_append, Pending.run_cons, Pending.run_cons]
      cases hstep : p.step t with
      | error k => rfl
      | ok wq =>
        obtain ⟨w, q⟩ := wq
        have hw : w.flatMap signBehind = w := step_signBehind hbehind hstep
        show prepend w (q.run (ts.flatMap signBefore)) = _ <$> prepend w (q.run ts)
        rw [flatMap_prepend, hw, ← ih q]

/-! ## Values -/

/-- The stack machine takes a number with a sign behind it for the negative number. -/
theorem run_signBehind {rpn : List Token} (h : ∀ x, .num x ∈ rpn → isFinite x = true)
    (stack : List Float) : run stack (rpn.flatMap signBehind) = run stack rpn := by
  induction rpn generalizing stack with
  | nil => rfl
  | cons t ts ih =>
    have ih := ih fun x hx => h x (by simp [hx])
    rw [List.flatMap_cons]
    rcases negative_or_plain t with ⟨x, rfl, -, hbehind, -⟩ | ⟨-, hbehind⟩
    · rw [hbehind]
      show run (- -x :: stack) (ts.flatMap signBehind) = run (x :: stack) ts
      rw [neg_neg_of_isFinite (h x (by simp)), ih]
    · rw [hbehind, List.singleton_append, run, run]
      exact bind_congr ih

theorem value_signBehind {rpn : List Token} (h : ∀ x, .num x ∈ rpn → isFinite x = true) :
    value (rpn.flatMap signBehind) = value rpn := by
  rw [value, value, run_signBehind h]

end Postfix

/-- The tokens of a text, and the same with every negative number written as a sign and
    the number without it, which is how they stand in the text. If no parenthesis opens
    directly after a negative number, both are put in postfix order or neither is, in
    the second order each negative number is a number and a sign behind it where it is
    one number in the first, and both orders have the same value or the same error. -/
theorem signs_apart_agree {s : String} {ts : List Token} (hts : ofText s = .ok ts)
    (hp : ∀ x, isNegative x = true → ¬ [.num x, .lparen] <:+: ts) :
    ofLexemes false (Lexeme.ofText s) = .ok (ts.flatMap signBefore) ∧
    Postfix.ofTokens (ts.flatMap signBefore) = (·.flatMap signBehind) <$> Postfix.ofTokens ts ∧
    ∀ rpn, Postfix.ofTokens ts = .ok rpn →
      Postfix.value (rpn.flatMap signBehind) = Postfix.value rpn := by
  have hread : Readable ts := readable_ofText hts
  refine ⟨ofLexemes_signBefore hts, Postfix.run_signBefore (hread.negativesEnd hp) .start, ?_⟩
  intro rpn hrpn
  apply Postfix.value_signBehind
  intro x hx
  have hmem := (Postfix.ofTokens_eq_ok_iff.mp hrpn).perm.mem_iff.mp hx
  exact hread.finite x (List.mem_filter.mp hmem).1

/-- A sign on its own before a parenthesis, and signs in numbers before and after a
    power. -/
theorem signs_apart_agree_power :
    ofText "-(-2)^-3" =
      .ok [.op .neg, .lparen, .num (-2), .rparen, .op (.binary .pow), .num (-3)] ∧
    (∀ x, isNegative x = true → ¬ [Token.num x, .lparen] <:+:
      [.op .neg, .lparen, .num (-2), .rparen, .op (.binary .pow), .num (-3)]) ∧
    Postfix.ofTokens [.op .neg, .lparen, .op .neg, .num 2, .rparen, .op (.binary .pow), .op .neg,
        .num 3] =
      .ok [.num 2, .op .neg, .op .neg, .num 3, .op .neg, .op (.binary .pow)] ∧
    Postfix.value [.num 2, .op .neg, .op .neg, .num 3, .op .neg, .op (.binary .pow)] =
      Postfix.value [.num (-2), .op .neg, .num (-3), .op (.binary .pow)] := by
  have hts : ofText "-(-2)^-3" =
      .ok [.op .neg, .lparen, .num (-2), .rparen, .op (.binary .pow), .num (-3)] :=
    eq_ok_of_toOption (by decide +kernel)
  have hp : ∀ x, isNegative x = true → ¬ [Token.num x, .lparen] <:+:
      [.op .neg, .lparen, .num (-2), .rparen, .op (.binary .pow), .num (-3)] := by
    simp [pair_infix_cons]
  have hrpn : Postfix.ofTokens
      [.op .neg, .lparen, .num (-2), .rparen, .op (.binary .pow), .num (-3)] =
      .ok [.num (-2), .op .neg, .num (-3), .op (.binary .pow)] :=
    eq_ok_of_toOption (by decide +kernel)
  have hbefore : [Token.op .neg, .lparen, .num (-2), .rparen, .op (.binary .pow), .num (-3)].flatMap
      signBefore = [.op .neg, .lparen, .op .neg, .num 2, .rparen, .op (.binary .pow), .op .neg,
        .num 3] := by decide +kernel
  have hbehind : [Token.num (-2), .op .neg, .num (-3), .op (.binary .pow)].flatMap signBehind =
      [.num 2, .op .neg, .op .neg, .num 3, .op .neg, .op (.binary .pow)] := by decide +kernel
  obtain ⟨-, horder, hvalue⟩ := signs_apart_agree hts hp
  rw [hbefore, hrpn] at horder
  have hvalue := hvalue _ hrpn
  rw [hbehind] at hvalue
  exact ⟨hts, hp, horder.trans (congrArg Except.ok hbehind), hvalue⟩

/-- In `-2(3-)` the number is the left operand of the difference in the parentheses,
    and a sign on its own would wait until these are closed. -/
example :
    (Postfix.ofTokens [.num (-2), .lparen, .num 3, .op (.binary .sub), .rparen] >>=
      Postfix.value).toOption = some (-5) ∧
    (Postfix.ofTokens [.op .neg, .num 2, .lparen, .num 3, .op (.binary .sub), .rparen] >>=
      Postfix.value).toOption = some 1 := by decide +kernel

end Calculator
