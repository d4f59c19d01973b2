import Calculator.Proofs.Expr.Spelling
import Calculator.Proofs.Postfix.Balance
import Calculator.Proofs.Postfix.Contents
import Calculator.Proofs.Postfix.Trees
/- Which texts are given a value. Any text that is gets it from a tree whose
   listing is the postfix order of its tokens (`evaluate_eq_ok_iff`), and a tree
   has one number more than operators between two operands. So in such a text as
   many operands are missing as are in surplus (`missing_eq_surplus`).

   Without juxtaposed operands none is missing then, and the text is one that the
   grammar derives (`derives_of_evaluate`). With them the text is refused when no
   operand is missing; when one is, a juxtaposed operand can come in its place
   (`juxtaposed_value_iff`, `juxtaposed_not_refused`). -/
namespace Calculator
open Calculator.Expr Token

/-! ## Counts -/

theorem Expr.postorder_count (e : Expr) :
    e.postorder.countP isNumber = e.postorder.countP isBinary + 1 := by
  induction e with
  | num x => rfl
  | neg e ih =>
    rw [postorder, List.countP_append, List.countP_append, ih]
    rfl
  | binary b l r ihl ihr =>
    have hn : [Token.op (.binary b)].countP isNumber = 0 := rfl
    have hb : [Token.op (.binary b)].countP isBinary = 1 := rfl
    simp only [postorder, List.countP_append, ihl, ihr, hn, hb]
    omega

/-- Tokens that are reordered to the listing of a tree lack as many operands as
    they have in surplus. -/
theorem missing_eq_surplus {k : Level} {ts : List Token} {e : Expr}
    (h : Postfix.Reorders k ts e.postorder) (hs : SignsPlaced false ts) :
    missing false ts = surplus false ts := by
  have hn : e.postorder.countP isNumber = ts.countP isNumber := h.countP_eq rfl rfl
  have hb : e.postorder.countP isBinary = ts.countP isBinary := h.countP_eq rfl rfl
  have he := e.postorder_count
  have hcount := operands_count hs
  rw [Bool.toNat_false] at hcount
  omega

/-! ## Texts with a value -/

theorem evaluate_eq_ok_iff {s : String} {ts : List Token} (ht : Token.ofText s = .ok ts)
    {v : Float} : evaluate s = .ok v ↔
      ∃ e : Expr, Postfix.Reorders .sum ts e.postorder ∧ e.value = .ok v := by
  have hs : evaluate s = Postfix.ofTokens ts >>= Postfix.value := by rw [evaluate, ht]; rfl
  rw [hs, bind_eq_ok_iff]
  constructor
  · intro h
    obtain ⟨rpn, hrpn, hv⟩ := h
    obtain ⟨e, rfl, he⟩ := Postfix.value_eq_ok_iff.mp hv
    exact ⟨e, Postfix.ofTokens_eq_ok_iff.mp hrpn, he⟩
  · intro h
    obtain ⟨e, hr, he⟩ := h
    exact ⟨e.postorder, hr.ofTokens, Postfix.value_eq_ok_iff.mpr ⟨e, rfl, he⟩⟩

theorem evaluate_error {s : String} (h : ∀ v, evaluate s ≠ .ok v) :
    ∃ k, evaluate s = .error k := by
  cases he : evaluate s with
  | error k => exact ⟨k, rfl⟩
  | ok v => exact absurd he (h v)

/-- A text without juxtaposed operands that is given a value is an expression of
    the grammar, and the value is that of its tree. No operand is missing in it,
    and its parentheses are balanced. -/
theorem derives_of_evaluate {s : String} {ts : List Token} {v : Float}
    (ht : Token.ofText s = .ok ts) (hj : ¬ Juxtaposed ts) (hv : evaluate s = .ok v) :
    (∃ e, Derives .sum ts e ∧ e.value = .ok v) ∧ Complete ts ∧ Balanced ts := by
  obtain ⟨e, hr, he⟩ := (evaluate_eq_ok_iff ht).mp hv
  have hs : SignsPlaced false ts := signsPlaced_ofText ht
  have hsur : surplus false ts = 0 := surplus_eq_zero hj (by simp)
  have hmis : missing false ts = 0 := by rw [missing_eq_surplus hr hs, hsur]
  have hp : Placed false true ts := placed_of_counts hs hmis hsur
  -- The derivation has a tree of its own, but with the same listing.
  obtain ⟨f, hf, hpost⟩ := hr.derives hp
  have hval : f.value = .ok v := by
    calc f.value = Postfix.value f.postorder := (value_postorder f).symm
      _ = Postfix.value e.postorder := by rw [hpost]
      _ = e.value := value_postorder e
      _ = .ok v := he
  exact ⟨⟨f, hf, hval⟩, hp.complete, hr.balanced⟩

theorem derives_of_evaluate_difference :
    Token.ofText "2-(3)" = .ok [.num 2, .op (.binary .sub), .lparen, .num 3, .rparen] ∧
    (¬ Juxtaposed [.num 2, .op (.binary .sub), .lparen, .num 3, .rparen]) ∧
    evaluate "2-(3)" = .ok (-1) ∧
    ∃ e, Derives .sum [.num 2, .op (.binary .sub), .lparen, .num 3, .rparen] e ∧
      e.value = .ok (-1) := by
  have ht : Token.ofText "2-(3)" =
      .ok [.num 2, .op (.binary .sub), .lparen, .num 3, .rparen] :=
    eq_ok_of_toOption (by decide +kernel)
  have hj : ¬ Juxtaposed [.num 2, .op (.binary .sub), .lparen, .num 3, .rparen] := by
    intro h
    have hpos : 0 < surplus false _ := surplus_pos_of_juxtaposed h
    exact absurd hpos (by decide)
  have hv : evaluate "2-(3)" = .ok (-1) := eq_ok_of_toOption (by decide +kernel)
  exact ⟨ht, hj, hv, (derives_of_evaluate ht hj hv).1⟩

/-! ## Juxtaposed operands -/

/-- A text with juxtaposed operands is given a value exactly if the free grammar
    of the reordering makes a tree of it that has the value. It does so only if as
    many operands are missing as are juxtaposed: where none is missing, or they
    are not equally many, the text is refused. -/
theorem juxtaposed_value_iff {s : String} {ts : List Token} (ht : Token.ofText s = .ok ts)
    (hj : Juxtaposed ts) :
    (∀ v, evaluate s = .ok v ↔
      ∃ e : Expr, Postfix.Reorders .sum ts e.postorder ∧ e.value = .ok v) ∧
    (missing false ts ≠ surplus false ts → ∃ k, evaluate s = .error k) ∧
    (missing false ts = 0 → ∃ k, evaluate s = .error k) := by
  have hrefused : missing false ts ≠ surplus false ts → ∃ k, evaluate s = .error k := by
    intro hne
    refine evaluate_error fun v hv => hne ?_
    obtain ⟨e, hr, -⟩ := (evaluate_eq_ok_iff ht).mp hv
    exact missing_eq_surplus hr (signsPlaced_ofText ht)
  refine ⟨fun v => evaluate_eq_ok_iff ht, hrefused, fun hm => hrefused ?_⟩
  have hpos : 0 < surplus false ts := surplus_pos_of_juxtaposed hj
  omega

/-- A number before a parenthesis comes in the place of the one that is missing
    inside it. -/
theorem juxtaposed_value_iff_difference :
    Token.ofText "2(3-)" = .ok [.num 2, .lparen, .num 3, .op (.binary .sub), .rparen] ∧
    Juxtaposed [.num 2, .lparen, .num 3, .op (.binary .sub), .rparen] ∧
    evaluate "2(3-)" = .ok (-1) ∧
    ∃ e : Expr, Postfix.Reorders .sum
      [.num 2, .lparen, .num 3, .op (.binary .sub), .rparen] e.postorder ∧
      e.value = .ok (-1) := by
  have ht : Token.ofText "2(3-)" =
      .ok [.num 2, .lparen, .num 3, .op (.binary .sub), .rparen] :=
    eq_ok_of_toOption (by decide +kernel)
  have hj : Juxtaposed [.num 2, .lparen, .num 3, .op (.binary .sub), .rparen] :=
    ⟨.num 2, .lparen, ⟨[], [.num 3, .op (.binary .sub), .rparen], rfl⟩, rfl, rfl⟩
  have hv : evaluate "2(3-)" = .ok (-1) := eq_ok_of_toOption (by decide +kernel)
  exact ⟨ht, hj, hv, ((juxtaposed_value_iff ht hj).1 (-1)).mp hv⟩

/-- In `(1)2+` the number after the parenthesis is taken for the right operand of
    the sum, which has none. -/
theorem juxtaposed_not_refused :
    ¬ ∀ (s : String) (ts : List Token), Token.ofText s = .ok ts → Juxtaposed ts →
      ∃ k, evaluate s = .error k := by
  intro h
  have ht : Token.ofText "(1)2+" =
      .ok [.lparen, .num 1, .rparen, .num 2, .op (.binary .add)] :=
    eq_ok_of_toOption (by decide +kernel)
  have hj : Juxtaposed [.lparen, .num 1, .rparen, .num 2, .op (.binary .add)] :=
    ⟨.rparen, .num 2, ⟨[.lparen, .num 1], [.op (.binary .add)], rfl⟩, rfl, rfl⟩
  have hv : evaluate "(1)2+" = .ok 3 := eq_ok_of_toOption (by decide +kernel)
  obtain ⟨k, hk⟩ := h "(1)2+" _ ht hj
  rw [hv] at hk
  cases hk

end Calculator
