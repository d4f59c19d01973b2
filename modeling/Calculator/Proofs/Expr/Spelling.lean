import Calculator.Evaluation
import Calculator.Proofs.Expr.Derivation
import Calculator.Proofs.Expr.Division
import Calculator.Proofs.Expr.Numeral
import Calculator.Proofs.Token.Reading
/- What the grammar spells is evaluated as the grammar means it. An expression
   written by the grammar, with blanks anywhere in it, is read as tokens that the
   grammar derives (`Spells.reads`), these are reordered to the listing of its
   tree, and the result is the value of the tree or a division by zero in it
   (`evaluate_of_spells`). -/
namespace Calculator
open Calculator.Expr Token

/-- The symbol of an operator is one character, which does not belong to a run. -/
theorem BinaryOp.symbol_cases (b : BinaryOp) :
    ∃ c, b.symbol.toList = [c] ∧ Lexeme.isRunChar c = false ∧
      ofSymbol true c = .ok (.op (.binary b)) := by
  cases b with
  | add => exact ⟨'+', rfl, by decide, rfl⟩
  | sub => exact ⟨'-', rfl, by decide, rfl⟩
  | mul => exact ⟨'*', rfl, by decide, rfl⟩
  | div => exact ⟨'/', rfl, by decide, rfl⟩
  | pow => exact ⟨'^', rfl, by decide, rfl⟩

/-- A signed operand starts with a sign or a parenthesis, or it is a number. -/
theorem Expr.Spells.apart {cs : List Char} {e : Expr} (h : Spells .signed cs e)
    (hn : ∀ x, ¬ Numeral cs x) (ds : List Char) : Apart (cs ++ ds) := by
  generalize hk : Level.signed = k at h
  cases h with
  | negNum _ => exact apart_cons (by decide)
  | neg _ _ => exact apart_cons (by decide)
  | signed h =>
    generalize hj : Level.atom = j at h
    cases h with
    | num h => exact absurd h (hn _)
    | parens _ => exact apart_cons (by decide)
    | binary b _ _ => cases b <;> cases hj
    | _ => cases hj
  | binary b _ _ => cases b <;> cases hk
  | _ => cases hk

/-- The characters of an expression are read as tokens that derive it, in any
    place where an operand is due and whatever follows that is not part of a run. -/
theorem Expr.Spells.reads {k : Level} {cs : List Char} {e : Expr} (h : Spells k cs e) :
    ∃ ts, Derives k ts e ∧ ∀ ds, Apart ds →
      readFrom false (cs ++ ds) = prepend ts (readFrom true ds) := by
  induction h with
  | @num cs x hn =>
    exact ⟨[.num x], .num x, fun ds hd => readFrom_run hn.ne_nil hn.run hn.read? hd⟩
  | @parens cs e _ ih =>
    obtain ⟨ts, hts, hread⟩ := ih
    refine ⟨.lparen :: (ts ++ [.rparen]), .parens hts, fun ds _ => ?_⟩
    have hclose : readFrom true (')' :: ds) = prepend [.rparen] (readFrom true ds) :=
      readFrom_symbol ds (by decide) rfl (by decide)
    rw [List.cons_append, List.append_assoc, readFrom_symbol _ (by decide) rfl (by decide)]
    show prepend [.lparen] (readFrom false (cs ++ ')' :: ds)) = _
    rw [hread _ (apart_cons (by decide)), hclose, prepend_prepend, prepend_prepend]
    rfl
  | @negNum cs x hn =>
    exact ⟨[.num (-x)], .signed (.num (-x)),
      fun ds hd => readFrom_signedRun hn.ne_nil hn.run hn.read? hd⟩
  | @neg cs e h hn ih =>
    obtain ⟨ts, hts, hread⟩ := ih
    refine ⟨.op .neg :: ts, .neg hts, fun ds hd => ?_⟩
    -- The sign is not taken into a number: none is spelled after it.
    rw [List.cons_append, readFrom_sign (h.apart hn ds), hread ds hd, prepend_prepend]
    rfl
  | @binary b ls rs l r _ _ ihl ihr =>
    obtain ⟨lts, hl, hreadl⟩ := ihl
    obtain ⟨rts, hr, hreadr⟩ := ihr
    obtain ⟨c, hc, hrun, hsym⟩ := b.symbol_cases
    refine ⟨lts ++ .op (.binary b) :: rts, .binary b hl hr, fun ds hd => ?_⟩
    have hop : readFrom true (c :: (rs ++ ds)) =
        prepend [.op (.binary b)] (readFrom false (rs ++ ds)) :=
      readFrom_symbol _ hrun hsym (by simp)
    rw [hc, List.append_assoc, List.append_assoc, List.singleton_append,
      hreadl _ (apart_cons hrun), hop, hreadr ds hd, prepend_prepend, prepend_prepend]
    simp
  | signed _ ih => obtain ⟨ts, hts, hread⟩ := ih; exact ⟨ts, .signed hts, hread⟩
  | power _ ih => obtain ⟨ts, hts, hread⟩ := ih; exact ⟨ts, .power hts, hread⟩
  | product _ ih => obtain ⟨ts, hts, hread⟩ := ih; exact ⟨ts, .product hts, hread⟩
  | sum _ ih => obtain ⟨ts, hts, hread⟩ := ih; exact ⟨ts, .sum hts, hread⟩

theorem Expr.Spells.ofText {s : String} {e : Expr}
    (h : Spells .sum (s.toList.filter fun c => !Text.isBlank c) e) :
    ∃ ts, Token.ofText s = .ok ts ∧ Derives .sum ts e := by
  obtain ⟨ts, hts, hread⟩ := h.reads
  have hread := hread [] apart_nil
  rw [List.append_nil] at hread
  refine ⟨ts, ?_, hts⟩
  rw [ofText_eq, hread]
  show Except.ok (ts ++ []) = _
  rw [List.append_nil]

end Calculator
