import Calculator.Proofs.Postfix.Contents
import Calculator.Proofs.Postfix.Trees
/- Blocks: tokens in parentheses. What stands before a block either stops the
   reordering, whatever comes after, or leaves operators waiting (`run_append`).
   The block writes out its own postfix order and leaves those operators as they
   are (`run_block`), and the stack machine puts the value of that order on top
   of any stack (`run_of_value`). So a block and a number with its value can
   stand for each other between any tokens (`block_as_number`). -/
namespace Calculator.Postfix
open Calculator.Expr Token

/-! ## What a beginning leaves waiting -/

/-- A step writes out a number where it reads one, and no other. -/
theorem step_numbers {p q : Pending} {t : Token} {out : List Token}
    (h : p.step t = .ok (out, q)) : out.filter isNumber = [t].filter isNumber := by
  rcases num_or_not t with ⟨x, rfl⟩ | ht
  · cases h
    rfl
  · have hout : out.filter isNumber = [] := by
      rw [List.filter_eq_nil_iff]
      exact fun u hu => ne_true_of_eq_false (step_not_number ht h u hu)
    rw [hout, List.filter_cons, ht]
    rfl

/-- The first tokens stop the reordering whatever follows them, or they write out
    their numbers among their operators and leave others waiting. -/
theorem run_append (p : Pending) (ts : List Token) :
    (∀ rest, p.run (ts ++ rest) = .error .unbalancedParentheses) ∨
    ∃ (w : List Token) (q : Pending), w.filter isNumber = ts.filter isNumber ∧
      ∀ rest, p.run (ts ++ rest) = prepend w (q.run rest) := by
  induction ts generalizing p with
  | nil => exact .inr ⟨[], p, rfl, fun rest => (prepend_nil _).symm⟩
  | cons t ts ih =>
    cases hs : p.step t with
    | error k =>
      obtain rfl := step_error hs
      left
      intro rest
      rw [List.cons_append, Pending.run_cons, hs]
      rfl
    | ok out =>
      obtain ⟨w, q⟩ := out
      have hrun (rest : List Token) :
          p.run (t :: ts ++ rest) = prepend w (q.run (ts ++ rest)) := by
        rw [List.cons_append, Pending.run_cons, hs]
        rfl
      rcases ih q with hstop | ⟨w', q', hw', hgo⟩
      · left
        intro rest
        rw [hrun, hstop]
        rfl
      · right
        refine ⟨w ++ w', q', ?_, fun rest => ?_⟩
        · rw [List.filter_append, step_numbers hs, hw', ← List.filter_append]
          rfl
        · rw [hrun, hgo, prepend_prepend]

/-! ## Blocks -/

/-- A block is one operand: it writes out its postfix order, and what waited
    before it waits after it. -/
theorem run_block {mid m : List Token} (h : ofTokens mid = .ok m) (p : Pending)
    (rest : List Token) :
    p.run (.lparen :: (mid ++ .rparen :: rest)) = prepend m (p.run rest) := by
  have hblock : Reorders .atom (.lparen :: (mid ++ [.rparen])) m := by
    have := Reorders.parens (k := .atom) (ofTokens_eq_ok_iff.mp h) .nil
    rwa [List.append_nil] at this
  have hhold : p.Holds .atom := fun o _ => o.right.tightness_le_atom
  obtain ⟨w, line, hw, hline, hrun⟩ := hblock.run p hhold
  -- No operator is as tight as an atom, so the block leaves none waiting.
  have hnone : line = [] := List.eq_nil_iff_forall_not_mem.mpr fun o ho => o.not_atom (hline o ho)
  subst hnone
  rw [List.map_nil, List.append_nil] at hw
  subst hw
  have := hrun rest
  rwa [List.cons_append, List.append_assoc] at this

/-- Tokens with a value put it on any stack, as one number does. -/
theorem run_of_value {m : List Token} {v : Float} (h : value m = .ok v) (stack : List Float)
    (ts : List Token) : run stack (m ++ ts) = run stack (.num v :: ts) := by
  obtain ⟨e, rfl, he⟩ := value_eq_ok_iff.mp h
  rw [run_postorder, he]
  rfl

theorem run_stack_append (stack : List Float) (ts us : List Token) :
    run stack (ts ++ us) = run stack ts >>= fun out => run out us := by
  induction ts generalizing stack with
  | nil => rfl
  | cons t ts ih =>
    simp only [List.cons_append, run, bind_assoc]
    exact bind_congr fun out => ih out

/-- In postfix order too, tokens with a value can stand for the number. -/
theorem value_replace {m : List Token} {v : Float} (h : value m = .ok v)
    (before after : List Token) :
    value (before ++ m ++ after) = value (before ++ .num v :: after) := by
  have hrun : run [] (before ++ m ++ after) = run [] (before ++ .num v :: after) := by
    rw [List.append_assoc, run_stack_append, run_stack_append]
    exact bind_congr fun stack => run_of_value h stack after
  rw [value, value, hrun]

/-- Between any tokens a block is put in order as a number is: both are refused,
    or the postfix order of the block stands where the number stands, behind the
    numbers before it. -/
theorem ofTokens_block {mid m : List Token} (h : ofTokens mid = .ok m) (pre post : List Token) :
    (ofTokens (pre ++ .lparen :: (mid ++ .rparen :: post)) = .error .unbalancedParentheses ∧
      ∀ x, ofTokens (pre ++ .num x :: post) = .error .unbalancedParentheses) ∨
    ∃ before after, before.filter isNumber = pre.filter isNumber ∧
      ofTokens (pre ++ .lparen :: (mid ++ .rparen :: post)) = .ok (before ++ m ++ after) ∧
      ∀ x, ofTokens (pre ++ .num x :: post) = .ok (before ++ .num x :: after) := by
  unfold ofTokens
  rcases run_append .start pre with hstop | ⟨w, q, hw, hgo⟩
  · exact .inl ⟨hstop _, fun x => hstop _⟩
  simp only [hgo, run_block h, Pending.run_num]
  cases hpost : q.run post with
  | error k =>
    obtain rfl := run_error hpost
    exact .inl ⟨rfl, fun x => rfl⟩
  | ok after =>
    refine .inr ⟨w, after, hw, ?_, fun x => ?_⟩
    · rw [prepend_ok, prepend_ok, List.append_assoc]
    · rw [prepend_ok, prepend_ok]
      rfl

/-- Between any tokens a block can stand for any number. Both are reordered or
    both are refused, and the postfix order of the block comes in the place of the
    number. If the block has a value, the whole has the same result, or the same
    error, as with a number of that value in its place. -/
theorem block_as_number {mid m : List Token} (h : ofTokens mid = .ok m) (pre post : List Token) :
    (∀ x, (∃ k, ofTokens (pre ++ .lparen :: (mid ++ .rparen :: post)) = .error k) ↔
      ∃ k, ofTokens (pre ++ .num x :: post) = .error k) ∧
    (∀ rpn, ofTokens (pre ++ .lparen :: (mid ++ .rparen :: post)) = .ok rpn →
      ∃ before after, rpn = before ++ m ++ after ∧
        before.filter isNumber = pre.filter isNumber ∧
        ∀ x, ofTokens (pre ++ .num x :: post) = .ok (before ++ .num x :: after)) ∧
    ∀ v, value m = .ok v →
      (ofTokens (pre ++ .lparen :: (mid ++ .rparen :: post)) >>= value) =
        (ofTokens (pre ++ .num v :: post) >>= value) := by
  rcases ofTokens_block h pre post with ⟨hblock, hnum⟩ | ⟨before, after, hnumbers, hblock, hnum⟩
  · rw [hblock]
    refine ⟨fun x => ?_, fun rpn hr => ?_, fun v _ => ?_⟩
    · rw [hnum x]
    · cases hr
    · rw [hnum v]
  · rw [hblock]
    refine ⟨fun x => ?_, fun rpn hr => ?_, fun v hv => ?_⟩
    · rw [hnum x]
      constructor
      · rintro ⟨k, hk⟩
        cases hk
      · rintro ⟨k, hk⟩
        cases hk
    · cases hr
      exact ⟨before, after, rfl, hnumbers, hnum⟩
    · rw [hnum v]
      exact value_replace hv before after

/-- In `2 - (1 - 3) ^`, where an operand is missing, the block and a number of its
    value are refused alike. -/
theorem block_as_number_power :
    ofTokens [.num 1, .op (.binary .sub), .num 3] =
      .ok [.num 1, .num 3, .op (.binary .sub)] ∧
    value [.num 1, .num 3, .op (.binary .sub)] = .ok (-2) ∧
    (ofTokens [.num 2, .op (.binary .sub), .lparen, .num 1, .op (.binary .sub), .num 3, .rparen,
        .op (.binary .pow)] >>= value) =
      (ofTokens [.num 2, .op (.binary .sub), .num (-2), .op (.binary .pow)] >>= value) := by
  have hm : ofTokens [.num 1, .op (.binary .sub), .num 3] =
      .ok [.num 1, .num 3, .op (.binary .sub)] := eq_ok_of_toOption (by decide +kernel)
  have hv : value [.num 1, .num 3, .op (.binary .sub)] = .ok (-2) :=
    eq_ok_of_toOption (by decide +kernel)
  have h := block_as_number hm [.num 2, .op (.binary .sub)] [.op (.binary .pow)]
  exact ⟨hm, hv, h.2.2 (-2) hv⟩

end Calculator.Postfix
