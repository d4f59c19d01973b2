import Calculator.Proofs.Postfix.Reordering
/- The operators that wait. Within one pair of parentheses an operator comes to wait
   only above such as bind less tightly, or equally tightly if it applies from right to
   left (`Op.Above`): those that it may not wait above are written out first. No token
   disturbs that (`step_inOrder`), so it holds after any tokens (`through_inOrder`) and
   of every line, also while its operators leave one by one (`lines_in_order`). There
   are four priorities, and at two of them an operator never waits above its equal,
   which leaves one form for such a line (`InOrder.layers`). -/
namespace Calculator

/-- Whether `upper` may wait directly above `lower`. -/
def Op.Above (upper lower : Op) : Prop :=
  lower.priority < upper.priority ∨
    lower.priority = upper.priority ∧ upper.rightAssociative = true

instance : DecidableRel Op.Above := fun _ _ => inferInstanceAs (Decidable (_ ∨ _))

theorem Op.not_precedes_iff_above {upper lower : Op} :
    lower.precedes upper = false ↔ upper.Above lower := by
  rw [Op.precedes, Op.Above]
  cases upper.rightAssociative <;> simp <;> omega

theorem Op.Above.trans {o p q : Op} (h : o.Above p) (h' : p.Above q) : o.Above q := by
  rcases h with h | ⟨h, hright⟩ <;> rcases h' with h' | ⟨h', -⟩
  · exact .inl (Nat.lt_trans h' h)
  · exact .inl (h' ▸ h)
  · exact .inl (h ▸ h')
  · exact .inr ⟨h'.trans h, hright⟩

namespace Postfix

/-! ## What a token does to the lines -/

/-- The operators of a line may wait as they do, the most recent first. -/
def InOrder (line : List Op) : Prop := line.Pairwise Op.Above

/-- Every line is in order. -/
def Pending.InOrder (p : Pending) : Prop := ∀ line ∈ p.line :: p.outer, Postfix.InOrder line

/-- What is left when all that goes before `o` is written out may wait below `o`. -/
theorem InOrder.push {line : List Op} (h : InOrder line) (o : Op) :
    InOrder (o :: line.dropWhile (·.precedes o)) := by
  induction line with
  | nil => exact List.pairwise_singleton _ o
  | cons q line ih =>
    obtain ⟨hq, hline⟩ := List.pairwise_cons.mp h
    cases hp : q.precedes o with
    | true => simpa [hp] using ih hline
    | false =>
      have hoq : o.Above q := Op.not_precedes_iff_above.mp hp
      simp only [List.dropWhile_cons, hp]
      apply List.pairwise_cons.mpr
      refine ⟨?_, h⟩
      intro r hr
      rcases List.mem_cons.mp hr with rfl | hr
      · exact hoq
      · exact hoq.trans (hq r hr)

theorem step_inOrder {p q : Pending} {t : Token} {w : List Token} (h : p.InOrder)
    (hs : p.step t = .ok (w, q)) : q.InOrder := by
  obtain ⟨line, outer⟩ := p
  obtain ⟨hline, houter⟩ := List.forall_mem_cons.mp h
  cases t with
  | num x => cases hs; exact h
  | op o => cases hs; exact List.forall_mem_cons.mpr ⟨hline.push o, houter⟩
  | lparen => cases hs; exact List.forall_mem_cons.mpr ⟨.nil, h⟩
  | rparen =>
    cases outer with
    | nil => cases hs
    | cons above outer => cases hs; exact houter

/-! ## What the tokens before any point leave waiting -/

/-- What the tokens write out from a given state on, and what waits after them. -/
def Pending.through (p : Pending) : List Token → Except Error (List Token × Pending)
  | [] => .ok ([], p)
  | t :: ts => do
    let (written, q) ← p.step t
    let (more, r) ← q.through ts
    return (written ++ more, r)

theorem through_cons_eq_ok {p q : Pending} {t : Token} {ts w : List Token}
    (h : p.through (t :: ts) = .ok (w, q)) :
    ∃ v r u, p.step t = .ok (v, r) ∧ r.through ts = .ok (u, q) ∧ v ++ u = w := by
  obtain ⟨⟨v, r⟩, hstep, h⟩ := bind_eq_ok_iff.mp h
  obtain ⟨⟨u, q'⟩, hrest, h⟩ := bind_eq_ok_iff.mp h
  cases h
  exact ⟨v, r, u, hstep, hrest, rfl⟩

/-- The reordering goes on from what waits after the first tokens. -/
theorem run_append_of_through {p q : Pending} {ts w : List Token}
    (h : p.through ts = .ok (w, q)) (rest : List Token) :
    p.run (ts ++ rest) = prepend w (q.run rest) := by
  induction ts generalizing p w with
  | nil =>
    cases h
    exact (prepend_nil _).symm
  | cons t ts ih =>
    obtain ⟨v, r, u, hstep, hrest, rfl⟩ := through_cons_eq_ok h
    rw [List.cons_append, Pending.run_cons, hstep]
    show prepend v (r.run (ts ++ rest)) = _
    rw [ih hrest, prepend_prepend]

theorem through_inOrder {p q : Pending} {ts w : List Token} (h : p.InOrder)
    (ht : p.through ts = .ok (w, q)) : q.InOrder := by
  induction ts generalizing p w with
  | nil => cases ht; exact h
  | cons t ts ih =>
    obtain ⟨v, r, u, hstep, hrest, -⟩ := through_cons_eq_ok ht
    exact ih (step_inOrder h hstep) hrest

/-! ## What a line in order looks like -/

theorem eq_zero_of_above_replicate {o q : Op} {n : Nat}
    (h : ∀ r ∈ List.replicate n q, o.Above r) (hq : ¬ o.Above q) : n = 0 := by
  cases n with
  | zero => rfl
  | succ n => exact absurd (h q List.mem_cons_self) hq

theorem eq_nil_of_not_above {o p q : Op} {ops : List Op} (h : ∀ r ∈ ops, o.Above r)
    (hops : ops ∈ [[], [p], [q]]) (hp : ¬ o.Above p) (hq : ¬ o.Above q) : ops = [] := by
  simp only [List.mem_cons, List.not_mem_nil, or_false] at hops
  rcases hops with rfl | rfl | rfl
  · rfl
  · exact absurd (h p List.mem_cons_self) hp
  · exact absurd (h q List.mem_cons_self) hq

/-- Signs wait above powers, these above a product or a quotient, and that above a sum
    or a difference. -/
theorem InOrder.layers {line : List Op} (h : InOrder line) :
    ∃ (signs powers : Nat) (product sum : List Op),
      line = List.replicate signs .neg ++ List.replicate powers (.binary .pow) ++ product ++ sum ∧
      product ∈ [[], [.binary .mul], [.binary .div]] ∧
      sum ∈ [[], [.binary .add], [.binary .sub]] := by
  induction line with
  | nil => exact ⟨0, 0, [], [], rfl, by decide, by decide⟩
  | cons o line ih =>
    obtain ⟨ho, hline⟩ := List.pairwise_cons.mp h
    obtain ⟨signs, powers, product, sum, rfl, hproduct, hsum⟩ := ih hline
    simp only [List.forall_mem_append] at ho
    obtain ⟨⟨⟨hsigns, hpowers⟩, hproducts⟩, hsums⟩ := ho
    -- The layers above which `o` may not wait are empty.
    rcases o with (_ | _ | _ | _ | _) | _
    case neg =>
      exact ⟨signs + 1, powers, product, sum, rfl, hproduct, hsum⟩
    case binary.pow =>
      obtain rfl := eq_zero_of_above_replicate hsigns (by decide)
      exact ⟨0, powers + 1, product, sum, rfl, hproduct, hsum⟩
    case binary.mul | binary.div =>
      obtain rfl := eq_zero_of_above_replicate hsigns (by decide)
      obtain rfl := eq_zero_of_above_replicate hpowers (by decide)
      obtain rfl := eq_nil_of_not_above hproducts hproduct (by decide) (by decide)
      exact ⟨0, 0, [_], sum, rfl, by decide, hsum⟩
    case binary.add | binary.sub =>
      obtain rfl := eq_zero_of_above_replicate hsigns (by decide)
      obtain rfl := eq_zero_of_above_replicate hpowers (by decide)
      obtain rfl := eq_nil_of_not_above hproducts hproduct (by decide) (by decide)
      obtain rfl := eq_nil_of_not_above hsums hsum (by decide) (by decide)
      exact ⟨0, 0, [], [_], rfl, by decide, by decide⟩

/-- The form of a line, the most recent operator first. -/
structure Layered (line : List Op) : Prop where
  /-- From the oldest to the most recent operator the priority never falls. -/
  rising : line.Pairwise fun upper lower => lower.priority ≤ upper.priority
  /-- Only powers and signs wait directly above their equals. -/
  equal : ∀ upper lower, [upper, lower] <:+: line → lower.priority = upper.priority →
    upper = .binary .pow ∨ upper = .neg
  layers : ∃ (signs powers : Nat) (product sum : List Op),
    line = List.replicate signs .neg ++ List.replicate powers (.binary .pow) ++ product ++ sum ∧
    product ∈ [[], [.binary .mul], [.binary .div]] ∧
    sum ∈ [[], [.binary .add], [.binary .sub]]

theorem Op.eq_of_rightAssociative {o : Op} (h : o.rightAssociative = true) :
    o = .binary .pow ∨ o = .neg := by
  rcases o with (_ | _ | _ | _ | _) | _
  case neg => exact .inr rfl
  case binary.pow => exact .inl rfl
  all_goals cases h

theorem InOrder.layered {line : List Op} (h : InOrder line) : Layered line where
  rising := h.imp fun hab => hab.elim Nat.le_of_lt fun heq => Nat.le_of_eq heq.1
  equal upper lower hin heq := by
    have habove : upper.Above lower := List.pairwise_pair.mp (h.sublist hin.sublist)
    rcases habove with hlt | ⟨-, hright⟩
    · exact absurd heq (Nat.ne_of_lt hlt)
    · exact Op.eq_of_rightAssociative hright
  layers := h.layers

/-- After any tokens that the reordering gets through, of which `p` is what waits and `w`
    what has been written out, every line is in its layers: that since the innermost open
    parenthesis, those that the open parentheses interrupted, and what is left of them
    when their most recent operators have been written out. -/
theorem lines_in_order {us w : List Token} {p : Pending}
    (h : Pending.start.through us = .ok (w, p)) :
    (∀ rest, ofTokens (us ++ rest) = prepend w (p.run rest)) ∧
    ∀ line ∈ p.line :: p.outer, ∀ n, Layered (line.drop n) := by
  refine ⟨run_append_of_through h, fun line hline n => ?_⟩
  have hstart : Pending.start.InOrder := by
    intro line hline
    rw [List.mem_singleton.mp hline]
    exact .nil
  have hin : InOrder line := through_inOrder hstart h line hline
  exact InOrder.layered (hin.sublist (List.drop_sublist n line))

/-- After `1 - 2 * 3 ^ - ( 4 + 5 ^ 6 ^ - -` nothing but numbers has been written out. -/
theorem lines_in_order_nested :
    Pending.start.through [.num 1, .op (.binary .sub), .num 2, .op (.binary .mul), .num 3,
        .op (.binary .pow), .op .neg, .lparen, .num 4, .op (.binary .add), .num 5,
        .op (.binary .pow), .num 6, .op (.binary .pow), .op .neg, .op .neg] =
      .ok ([.num 1, .num 2, .num 3, .num 4, .num 5, .num 6],
        ⟨[.neg, .neg, .binary .pow, .binary .pow, .binary .add],
          [[.neg, .binary .pow, .binary .mul, .binary .sub]]⟩) ∧
    Layered [.neg, .neg, .binary .pow, .binary .pow, .binary .add] ∧
    Layered [.neg, .binary .pow, .binary .mul, .binary .sub] := by
  have h : Pending.start.through [.num 1, .op (.binary .sub), .num 2, .op (.binary .mul), .num 3,
      .op (.binary .pow), .op .neg, .lparen, .num 4, .op (.binary .add), .num 5,
      .op (.binary .pow), .num 6, .op (.binary .pow), .op .neg, .op .neg] =
      .ok ([.num 1, .num 2, .num 3, .num 4, .num 5, .num 6],
        ⟨[.neg, .neg, .binary .pow, .binary .pow, .binary .add],
          [[.neg, .binary .pow, .binary .mul, .binary .sub]]⟩) := rfl
  have hlines := (lines_in_order h).2
  exact ⟨h, hlines _ List.mem_cons_self 0, hlines _ (List.mem_cons_of_mem _ List.mem_cons_self) 0⟩

end Postfix
end Calculator
