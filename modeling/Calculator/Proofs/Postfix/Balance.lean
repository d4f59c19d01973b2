import Calculator.Postfix.Balance
import Calculator.Proofs.Postfix.Reordering
/- Balanced lists are closed under what the free grammar does: they follow one
   another, stand inside a pair of parentheses, and take in tokens that are no
   parentheses. So what is reordered is balanced (`Reorders.balanced`). And what is
   balanced is reordered (`ofTokens_of_balanced`): the open parentheses of the
   tokens that wait are those that the rest of the tokens has to close. Nothing else
   stops the reordering (`run_error`). -/
namespace Calculator
open Token

/-- A beginning of two lists in a row ends inside the first, or takes it whole
    and ends inside the second. -/
theorem prefix_of_append {α : Type} {us ls rs : List α} (h : us <+: ls ++ rs) :
    us <+: ls ∨ ∃ vs, vs <+: rs ∧ ls ++ vs = us := by
  induction ls generalizing us with
  | nil => exact .inr ⟨us, h, rfl⟩
  | cons l ls ih =>
    rcases List.prefix_cons_iff.mp h with rfl | ⟨ts, rfl, ht⟩
    · exact .inl List.nil_prefix
    · rcases ih ht with ht | ⟨vs, hvs, rfl⟩
      · exact .inl (List.cons_prefix_cons.mpr ⟨rfl, ht⟩)
      · exact .inr ⟨vs, hvs, rfl⟩

namespace Balanced

theorem nil : Balanced [] where
  beginnings us h := by rw [List.prefix_nil.mp h]; exact Nat.le_refl _
  whole := rfl

theorem single {t : Token} (ho : t.isOpening = false) (hc : t.isClosing = false) :
    Balanced [t] where
  beginnings us h := by
    have hle : us.countP isClosing ≤ [t].countP isClosing := h.sublist.countP_le
    rw [List.countP_singleton, hc] at hle
    exact Nat.le_trans hle (Nat.zero_le _)
  whole := by rw [List.countP_singleton, List.countP_singleton, ho, hc]

theorem append {ts us : List Token} (ht : Balanced ts) (hu : Balanced us) :
    Balanced (ts ++ us) where
  beginnings vs h := by
    rcases prefix_of_append h with hv | ⟨ws, hw, rfl⟩
    · exact ht.beginnings vs hv
    · have := hu.beginnings ws hw
      rw [List.countP_append, List.countP_append, ht.whole]
      omega
  whole := by rw [List.countP_append, List.countP_append, ht.whole, hu.whole]

theorem parens {ts : List Token} (ht : Balanced ts) :
    Balanced (.lparen :: (ts ++ [.rparen])) where
  beginnings us h := by
    rcases List.prefix_cons_iff.mp h with rfl | ⟨vs, rfl, hv⟩
    · exact Nat.le_refl _
    · simp only [List.countP_cons, isOpening, isClosing, Bool.false_eq_true, if_false, if_true]
      rcases prefix_of_append hv with hv | ⟨ws, hw, rfl⟩
      · have := ht.beginnings vs hv
        omega
      · have hle : ws.countP isClosing ≤ [Token.rparen].countP isClosing := hw.sublist.countP_le
        have hone : [Token.rparen].countP isClosing = 1 := rfl
        rw [List.countP_append, List.countP_append, ht.whole]
        omega
  whole := by
    have := ht.whole
    simp only [List.countP_cons, List.countP_append, List.countP_nil, isOpening, isClosing,
      Bool.false_eq_true, if_false, if_true]
    omega

end Balanced

namespace Postfix

theorem step_error {p : Pending} {t : Token} {k : Error} (h : p.step t = .error k) :
    k = .unbalancedParentheses := by
  obtain ⟨line, outer⟩ := p
  cases t with
  | rparen =>
    cases outer with
    | nil => cases h; rfl
    | cons above outer => cases h
  | _ => cases h

/-- The reordering is stopped by parentheses only. -/
theorem run_error {p : Pending} {ts : List Token} {k : Error} (h : p.run ts = .error k) :
    k = .unbalancedParentheses := by
  induction ts generalizing p with
  | nil =>
    unfold Pending.run at h
    split at h
    · cases h
    · cases h; rfl
  | cons t ts ih =>
    rw [Pending.run_cons] at h
    cases hs : p.step t with
    | error k' =>
      rw [hs] at h
      cases h
      exact step_error hs
    | ok wq =>
      rw [hs] at h
      change prepend wq.1 (wq.2.run ts) = .error k at h
      cases hr : wq.2.run ts with
      | error k' =>
        rw [hr] at h
        cases h
        exact ih hr
      | ok out =>
        rw [hr] at h
        cases h

/-- Only balanced parentheses are reordered. -/
theorem Reorders.balanced {k : Level} {ts rpn : List Token} (h : Reorders k ts rpn) :
    Balanced ts := by
  induction h with
  | nil => exact .nil
  | @num k x ts _ _ ih => exact (Balanced.single (t := .num x) rfl rfl).append ih
  | @parens k us ts _ _ _ _ ihu iht =>
    have := ihu.parens.append iht
    simpa using this
  | @op k o ls rs _ _ _ _ _ ihl ihr =>
    exact ihl.append ((Balanced.single (t := .op o) rfl rfl).append ihr)

/-- No beginning of the tokens closes more parentheses than it opens and `depth`
    more, and all of them together close just as many. -/
structure BalancedFrom (depth : Nat) (ts : List Token) : Prop where
  beginnings : ∀ us, us <+: ts → us.countP isClosing ≤ us.countP isOpening + depth
  whole : ts.countP isClosing = ts.countP isOpening + depth

theorem BalancedFrom.tail {depth depth' : Nat} {t : Token} {ts : List Token}
    (h : BalancedFrom depth (t :: ts))
    (hd : depth + [t].countP isOpening = depth' + [t].countP isClosing) :
    BalancedFrom depth' ts where
  beginnings us hu := by
    have hcons := h.beginnings (t :: us) (List.cons_prefix_cons.mpr ⟨rfl, hu⟩)
    rw [← List.singleton_append, List.countP_append, List.countP_append] at hcons
    omega
  whole := by
    have hcons := h.whole
    rw [← List.singleton_append, List.countP_append, List.countP_append] at hcons
    omega

/-- Every closing parenthesis finds its opening one among those that are open, and
    none is open at the end. -/
theorem run_of_balancedFrom {p : Pending} {ts : List Token}
    (h : BalancedFrom p.outer.length ts) : ∃ rpn, p.run ts = .ok rpn := by
  induction ts generalizing p with
  | nil =>
    have hnone : p.outer = [] := List.eq_nil_of_length_eq_zero (by simpa using h.whole.symm)
    exact ⟨p.line.map .op, if_pos hnone⟩
  | cons t ts ih =>
    obtain ⟨out, q, hstep, hq⟩ :
        ∃ out q, p.step t = .ok (out, q) ∧ BalancedFrom q.outer.length ts := by
      obtain ⟨line, outer⟩ := p
      cases t with
      | num x => exact ⟨_, _, rfl, h.tail rfl⟩
      | op o => exact ⟨_, _, rfl, h.tail rfl⟩
      | lparen => exact ⟨_, _, rfl, h.tail rfl⟩
      | rparen =>
        cases outer with
        | nil =>
          have hfirst : 1 ≤ 0 :=
            h.beginnings [.rparen] (List.cons_prefix_cons.mpr ⟨rfl, List.nil_prefix⟩)
          exact absurd hfirst (by decide)
        | cons above outer => exact ⟨_, _, rfl, h.tail rfl⟩
    obtain ⟨rest, hrest⟩ := ih hq
    exact ⟨out ++ rest, by rw [Pending.run_cons, hstep]; exact congrArg (prepend out) hrest⟩

theorem ofTokens_of_balanced {ts : List Token} (h : Balanced ts) : ∃ rpn, ofTokens ts = .ok rpn :=
  run_of_balancedFrom ⟨h.beginnings, h.whole⟩

end Postfix
end Calculator
