import Calculator.Proofs.Postfix.Balance
import Calculator.Proofs.Token.Operands
/- What the reordering asks for and what it writes out. It asks for balanced
   parentheses and looks at no other token for it (`ofTokens_by_balance`). It writes
   out every token that is no parenthesis, as often as it was read, in whatever order
   (`Reorders.perm`), but the numbers in theirs (`Reorders.numbers`), since a step writes
   out no number but the one that it reads (`step_not_number`). So no parenthesis is
   written out, tokens of any other kind are as many after as before
   (`Reorders.countP_eq`), and nothing at all is written out exactly if nothing but
   parentheses was read (`Reorders.eq_nil_iff`). -/
namespace Calculator

def Token.isParen (t : Token) : Bool := t.isOpening || t.isClosing

namespace Postfix
open Token

/-! ## Parentheses -/

theorem countP_filter_isParen {p : Token → Bool} (hp : ∀ t, p t = true → t.isParen = true)
    (ts : List Token) : (ts.filter isParen).countP p = ts.countP p := by
  rw [List.countP_filter]
  apply List.countP_congr
  intro t _
  simpa using hp t

/-- Balance is a matter of the parentheses alone. -/
theorem balanced_filter_isParen (ts : List Token) :
    Balanced (ts.filter isParen) ↔ Balanced ts := by
  have hopening : ∀ us : List Token, (us.filter isParen).countP isOpening = us.countP isOpening :=
    countP_filter_isParen (by simp +contextual [isParen])
  have hclosing : ∀ us : List Token, (us.filter isParen).countP isClosing = us.countP isClosing :=
    countP_filter_isParen (by simp +contextual [isParen])
  constructor
  · intro h
    refine ⟨fun us hus => ?_, ?_⟩
    · have hle := h.beginnings _ (hus.filter isParen)
      rwa [hopening, hclosing] at hle
    · have hall := h.whole
      rwa [hopening, hclosing] at hall
  · intro h
    refine ⟨fun us hus => ?_, ?_⟩
    · -- A beginning of the parentheses is what a beginning of all tokens has of them.
      obtain ⟨vs, hvs, rfl⟩ := List.prefix_filter_iff.mp hus
      rw [hopening, hclosing]
      exact h.beginnings vs hvs
    · rw [hopening, hclosing]
      exact h.whole

theorem ofTokens_ok_iff_balanced (ts : List Token) :
    (∃ rpn, ofTokens ts = .ok rpn) ↔ Balanced ts := by
  constructor
  · rintro ⟨rpn, h⟩
    exact (ofTokens_eq_ok_iff.mp h).balanced
  · exact ofTokens_of_balanced

/-- Tokens of any kind and in any order can be put in postfix order exactly if their
    parentheses are balanced. If not, that is the error, and there is no other one.
    The tokens between the parentheses have no say in it. -/
theorem ofTokens_by_balance (ts : List Token) :
    ((∃ rpn, ofTokens ts = .ok rpn) ↔ Balanced ts) ∧
    (∀ k, ofTokens ts = .error k ↔ k = .unbalancedParentheses ∧ ¬ Balanced ts) ∧
    ((∃ rpn, ofTokens ts = .ok rpn) ↔ ∃ rpn, ofTokens (ts.filter isParen) = .ok rpn) := by
  refine ⟨ofTokens_ok_iff_balanced ts, fun k => ?_, ?_⟩
  · rw [← ofTokens_ok_iff_balanced ts]
    cases h : ofTokens ts with
    | ok rpn => simp
    | error k' =>
      obtain rfl := run_error h
      simp [eq_comm]
  · rw [ofTokens_ok_iff_balanced, ofTokens_ok_iff_balanced, balanced_filter_isParen]

/-! ## What is written out -/

/-- The operators that wait have no numbers among them. -/
theorem ops_not_number (line : List Op) : ∀ t ∈ line.map Token.op, t.isNumber = false :=
  List.forall_mem_map.mpr fun _ _ => rfl

/-- A step writes out no number where it reads none. -/
theorem step_not_number {p q : Pending} {t : Token} {w : List Token} (ht : t.isNumber = false)
    (h : p.step t = .ok (w, q)) : ∀ u ∈ w, u.isNumber = false := by
  obtain ⟨line, outer⟩ := p
  cases t with
  | num x => cases ht
  | op o => cases h; exact ops_not_number _
  | lparen => cases h; exact List.forall_mem_nil _
  | rparen =>
    cases outer with
    | nil => cases h
    | cons above outer => cases h; exact ops_not_number _

namespace Reorders

theorem perm {k : Level} {ts rpn : List Token} (h : Reorders k ts rpn) :
    rpn.Perm (ts.filter fun t => !t.isParen) := by
  induction h with
  | nil => exact .nil
  | @num k x ts rpn _ ih => exact ih.cons (.num x)
  | @parens k us ts inner rpn _ _ ihu iht =>
    have hfilter : (Token.lparen :: (us ++ .rparen :: ts)).filter (fun t => !t.isParen) =
        us.filter (fun t => !t.isParen) ++ ts.filter fun t => !t.isParen := by
      simp [isParen, isOpening, isClosing]
    rw [hfilter]
    exact ihu.append iht
  | @op k o ls rs l r _ _ _ ihl ihr =>
    have hright : (r ++ [Token.op o]).Perm (.op o :: rs.filter fun t => !t.isParen) :=
      (List.perm_append_singleton _ r).trans (ihr.cons _)
    have hfilter : (ls ++ Token.op o :: rs).filter (fun t => !t.isParen) =
        ls.filter (fun t => !t.isParen) ++ .op o :: rs.filter fun t => !t.isParen := by
      simp [isParen, isOpening, isClosing]
    rw [hfilter, List.append_assoc]
    exact ihl.append hright

/-- The numbers are written out in the order in which they were read. -/
theorem numbers {k : Level} {ts rpn : List Token} (h : Reorders k ts rpn) :
    rpn.filter isNumber = ts.filter isNumber := by
  induction h with
  | nil => rfl
  | @num k x ts rpn _ ih =>
    rw [List.filter_cons_of_pos rfl, List.filter_cons_of_pos rfl, ih]
  | @parens k us ts inner rpn _ _ ihu iht =>
    rw [List.filter_append, ihu, iht]
    simp [isNumber]
  | @op k o ls rs l r _ _ _ ihl ihr =>
    rw [List.filter_append, List.filter_append, ihl, ihr]
    simp [isNumber]

theorem not_paren {k : Level} {ts rpn : List Token} (h : Reorders k ts rpn) :
    ∀ t ∈ rpn, t.isParen = false := by
  intro t ht
  have hmem := h.perm.mem_iff.mp ht
  simpa using (List.mem_filter.mp hmem).2

/-- The reordering leaves out the parentheses and nothing else. -/
theorem countP_eq {k : Level} {ts rpn : List Token} (h : Reorders k ts rpn)
    {p : Token → Bool} (ho : p .lparen = false) (hc : p .rparen = false) :
    rpn.countP p = ts.countP p := by
  rw [h.perm.countP_eq, List.countP_filter]
  apply List.countP_congr
  intro t _
  cases t <;> simp [isParen, isOpening, isClosing, ho, hc]

theorem eq_nil_iff {k : Level} {ts rpn : List Token} (h : Reorders k ts rpn) :
    rpn = [] ↔ ∀ t ∈ ts, t.isParen = true := by
  have hperm : rpn = [] ↔ (ts.filter fun t => !t.isParen) = [] := by
    constructor
    · intro hnil
      exact List.nil_perm.mp (hnil ▸ h.perm)
    · intro hnil
      exact List.perm_nil.mp (hnil ▸ h.perm)
  rw [hperm, List.filter_eq_nil_iff]
  simp

end Reorders

/-- Whatever the tokens, if they can be put in postfix order, no parenthesis is left,
    the others are all there, each as often as before, and the numbers follow each
    other as before. -/
theorem ofTokens_contents {ts rpn : List Token} (h : ofTokens ts = .ok rpn) :
    (∀ t ∈ rpn, t.isParen = false) ∧
    rpn.Perm (ts.filter fun t => !t.isParen) ∧
    rpn.filter isNumber = ts.filter isNumber := by
  have hr : Reorders .sum ts rpn := ofTokens_eq_ok_iff.mp h
  exact ⟨hr.not_paren, hr.perm, hr.numbers⟩

/-- In `* 2 ( 3 ( ^ ) - ) neg 2` there is an operand missing or in surplus at almost
    every place. -/
theorem ofTokens_contents_ill_formed :
    ofTokens [.op (.binary .mul), .num 2, .lparen, .num 3, .lparen, .op (.binary .pow), .rparen,
        .op (.binary .sub), .rparen, .op .neg, .num 2] =
      .ok [.num 2, .num 3, .op (.binary .pow), .op (.binary .sub), .num 2, .op .neg,
        .op (.binary .mul)] ∧
    [Token.num 2, .num 3, .op (.binary .pow), .op (.binary .sub), .num 2, .op .neg,
      .op (.binary .mul)].Perm
        [.op (.binary .mul), .num 2, .num 3, .op (.binary .pow), .op (.binary .sub), .op .neg,
          .num 2] := by
  have h : ofTokens [.op (.binary .mul), .num 2, .lparen, .num 3, .lparen, .op (.binary .pow),
      .rparen, .op (.binary .sub), .rparen, .op .neg, .num 2] =
      .ok [.num 2, .num 3, .op (.binary .pow), .op (.binary .sub), .num 2, .op .neg,
        .op (.binary .mul)] := eq_ok_of_toOption (by decide +kernel)
  exact ⟨h, (ofTokens_contents h).2.1⟩

end Postfix
end Calculator
