import Calculator.Proofs.Expr.Acceptance
import Calculator.Proofs.Postfix.Height
import Calculator.Proofs.Token.Lexical
/- The counts of the tokens of a text. Balanced tokens are put in postfix order,
   which has the same numbers, operators and signs, so their counts alone leave few
   results (`evaluate_by_counts`). Two operators in a row take one operand more than
   the expressions on both sides of them have, whatever these are: such a text is
   always refused. -/
namespace Calculator
open Calculator.Expr Token

theorem evaluate_of_ofTokens {s : String} {ts rpn : List Token} (ht : Token.ofText s = .ok ts)
    (hrpn : Postfix.ofTokens ts = .ok rpn) : evaluate s = Postfix.value rpn := by
  rw [evaluate, ht]
  show Postfix.ofTokens ts >>= Postfix.value = _
  rw [hrpn]
  rfl

/-- The result of a balanced text is told by the counts of its tokens. -/
theorem counted_of_balanced {s : String} {ts : List Token} (ht : Token.ofText s = .ok ts)
    (hb : Balanced ts) :
    Postfix.Counted (ts.countP isNumber) (ts.countP isBinary) (ts.countP isSign) (evaluate s) := by
  obtain ⟨rpn, hrpn⟩ := Postfix.ofTokens_of_balanced hb
  have hr := Postfix.ofTokens_eq_ok_iff.mp hrpn
  have hcounted := Postfix.value_counted hr.not_paren
  rw [evaluate_of_ofTokens ht hrpn]
  rwa [hr.countP_eq rfl rfl, hr.countP_eq rfl rfl, hr.countP_eq rfl rfl] at hcounted

/-- The tokens of an expression have one number more than operators. -/
theorem Expr.Derives.count {k : Level} {ts : List Token} {e : Expr} (h : Derives k ts e) :
    ts.countP isNumber = ts.countP isBinary + 1 := by
  have hr := h.reorders
  rw [← hr.countP_eq (p := isNumber) rfl rfl, ← hr.countP_eq (p := isBinary) rfl rfl]
  exact e.postorder_count

/-- Only the minus sign is read in another way where an operand is due. -/
theorem BinaryOp.ofSymbol_of_ne_sub {b : BinaryOp} (h : b ≠ .sub) :
    ∃ c, b.symbol.toList = [c] ∧ Lexeme.isRunChar c = false ∧
      ∀ after, ofSymbol after c = .ok (.op (.binary b)) := by
  cases b with
  | add => exact ⟨'+', rfl, by decide, fun _ => rfl⟩
  | sub => exact absurd rfl h
  | mul => exact ⟨'*', rfl, by decide, fun _ => rfl⟩
  | div => exact ⟨'/', rfl, by decide, fun _ => rfl⟩
  | pow => exact ⟨'^', rfl, by decide, fun _ => rfl⟩

/-- Two expressions with two operators between them are read as such. -/
theorem ofText_of_two_operators {s : String} {as bs : List Char} {e f : Expr} {b c : BinaryOp}
    (ha : Spells .sum as e) (hb : Spells .sum bs f) (hc : c ≠ .sub)
    (hs : written s = as ++ b.symbol.toList ++ c.symbol.toList ++ bs) :
    ∃ ls rs, Derives .sum ls e ∧ Derives .sum rs f ∧
      Token.ofText s = .ok (ls ++ .op (.binary b) :: .op (.binary c) :: rs) := by
  obtain ⟨ls, hls, hreadl⟩ := ha.reads
  obtain ⟨rs, hrs, hreadr⟩ := hb.reads
  obtain ⟨x, hx, hrunx, hsymx⟩ := b.symbol_cases
  obtain ⟨y, hy, hruny, hsymy⟩ := BinaryOp.ofSymbol_of_ne_sub hc
  have hright : readFrom false bs = .ok rs := by
    have hread := hreadr [] apart_nil
    rw [List.append_nil] at hread
    rw [hread]
    show Except.ok (rs ++ []) = _
    rw [List.append_nil]
  have hsecond : readFrom false (y :: bs) = prepend [.op (.binary c)] (readFrom false bs) :=
    readFrom_symbol bs hruny (hsymy false) (by simp)
  have hfirst : readFrom true (x :: y :: bs) =
      prepend [.op (.binary b)] (readFrom false (y :: bs)) :=
    readFrom_symbol _ hrunx hsymx (by simp)
  refine ⟨ls, rs, hls, hrs, ?_⟩
  rw [ofText_eq]
  calc readFrom false (written s)
      = readFrom false (as ++ x :: y :: bs) := by rw [hs, hx, hy]; simp
    _ = prepend ls (readFrom true (x :: y :: bs)) := hreadl _ (apart_cons hrunx)
    _ = .ok (ls ++ .op (.binary b) :: .op (.binary c) :: rs) := by
      rw [hfirst, hsecond, hright]; rfl

/-- In a text with balanced parentheses, with `n` numbers, `m` operators between
    two operands and `k` signs, a value takes `n = m + 1`, and then nothing is in
    surplus at the end; with fewer numbers an operand is missing, unless a division
    by zero comes first; with more there is an error; and where there is nothing but
    parentheses there is no value. Two operators in a row between two expressions
    leave too few numbers, whatever the expressions are. -/
theorem evaluate_by_counts (s : String) :
    (∀ ts, Token.ofText s = .ok ts → Balanced ts →
      Postfix.Counted (ts.countP isNumber) (ts.countP isBinary) (ts.countP isSign) (evaluate s)) ∧
    ∀ (as bs : List Char) (e f : Expr) (b c : BinaryOp), Spells .sum as e → Spells .sum bs f →
      c ≠ .sub → written s = as ++ b.symbol.toList ++ c.symbol.toList ++ bs →
      evaluate s = .error .missingOperand ∨ evaluate s = .error .divisionByZero := by
  refine ⟨fun ts => counted_of_balanced, ?_⟩
  intro as bs e f b c ha hb hc hs
  obtain ⟨ls, rs, hls, hrs, ht⟩ := ofText_of_two_operators ha hb hc hs
  have hbalanced : Balanced (ls ++ .op (.binary b) :: .op (.binary c) :: rs) := by
    have hop (o : Op) : Balanced [.op o] := .single rfl rfl
    exact hls.reorders.balanced.append ((hop _).append ((hop _).append hrs.reorders.balanced))
  have hl := hls.count
  have hr := hrs.count
  have hn : (ls ++ .op (.binary b) :: .op (.binary c) :: rs).countP isNumber =
      ls.countP isNumber + rs.countP isNumber := by
    rw [List.countP_append, List.countP_cons_of_neg Bool.false_ne_true,
      List.countP_cons_of_neg Bool.false_ne_true]
  have hm : (ls ++ .op (.binary b) :: .op (.binary c) :: rs).countP isBinary =
      ls.countP isBinary + rs.countP isBinary + 2 := by
    rw [List.countP_append, List.countP_cons_of_pos rfl, List.countP_cons_of_pos rfl]
    rfl
  apply (counted_of_balanced ht hbalanced).few
  · omega
  · omega

/-- The two operators of `2 * + 3` leave too few numbers, and so does what stands
    between the parentheses of `(4 -) / 5`. -/
theorem evaluate_by_counts_operators :
    (Token.ofText "(4-)/5" = .ok [.lparen, .num 4, .op (.binary .sub), .rparen,
        .op (.binary .div), .num 5] ∧
      Balanced [.lparen, .num 4, .op (.binary .sub), .rparen, .op (.binary .div), .num 5] ∧
      (evaluate "(4-)/5" = .error .missingOperand ∨ evaluate "(4-)/5" = .error .divisionByZero)) ∧
    (Spells .sum ['2'] (.num 2) ∧ Spells .sum ['3'] (.num 3) ∧ BinaryOp.add ≠ .sub ∧
      written "2 * + 3" = ['2'] ++ BinaryOp.mul.symbol.toList ++ BinaryOp.add.symbol.toList ++ ['3'] ∧
      (evaluate "2 * + 3" = .error .missingOperand ∨
        evaluate "2 * + 3" = .error .divisionByZero)) := by
  have ht : Token.ofText "(4-)/5" = .ok [.lparen, .num 4, .op (.binary .sub), .rparen,
      .op (.binary .div), .num 5] := eq_ok_of_toOption (by decide +kernel)
  have hr : Postfix.ofTokens [.lparen, .num 4, .op (.binary .sub), .rparen,
      .op (.binary .div), .num 5] =
      .ok [.num 4, .op (.binary .sub), .num 5, .op (.binary .div)] := by decide +kernel
  have hb := (Postfix.ofTokens_eq_ok_iff.mp hr).balanced
  have hnumeral (c : Char) (x : Float) (hc : c.isDigit = true)
      (hx : Number.read? [c] = some x) : Spells .sum [c] (.num x) := by
    have hrun : ∀ d ∈ [c], Lexeme.isRunChar d = true := by simp [Lexeme.isRunChar, hc]
    exact .sum (.product (.power (.signed (.num ((numeral_iff_read? hrun).mpr hx)))))
  have htwo : Spells .sum ['2'] (.num 2) := hnumeral '2' 2 (by decide) (by decide +kernel)
  have hthree : Spells .sum ['3'] (.num 3) := hnumeral '3' 3 (by decide) (by decide +kernel)
  have hs : written "2 * + 3" =
      ['2'] ++ BinaryOp.mul.symbol.toList ++ BinaryOp.add.symbol.toList ++ ['3'] := by decide
  have hcounts := (evaluate_by_counts "(4-)/5").1 _ ht hb
  have hpair := (evaluate_by_counts "2 * + 3").2 _ _ _ _ _ _ htwo hthree (by decide) hs
  exact ⟨⟨ht, hb, hcounts.few (by decide) (by decide)⟩, htwo, hthree, by decide, hs, hpair⟩

end Calculator
