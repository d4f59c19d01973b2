import Calculator.Proofs.Postfix.Reordering
import Calculator.Proofs.Token.Operands
/- The grammar of expressions inside the free grammar of the reordering. What
   the grammar derives is reordered to the listing of its tree
   (`Derives.reorders`); and what is reordered at all is derived by the grammar
   when every token stands where it may (`Reorders.derives`). -/
namespace Calculator
open Calculator.Expr

/-! ## Derived tokens are reordered to the listing of their tree -/

/-- An expression of a tighter level is one of each looser level. -/
theorem Expr.Derives.loosen {j k : Level} {ts : List Token} {e : Expr} (h : Derives j ts e)
    (hk : k.tightness ≤ j.tightness) : Derives k ts e := by
  cases j <;> cases k <;> first
    | exact h
    | exact absurd hk (by decide)
    | exact .sum h
    | exact .sum (.product h)
    | exact .sum (.product (.power h))
    | exact .sum (.product (.power (.signed h)))
    | exact .product h
    | exact .product (.power h)
    | exact .product (.power (.signed h))
    | exact .power h
    | exact .power (.signed h)
    | exact .signed h

theorem Expr.Derives.reorders {k : Level} {ts : List Token} {e : Expr} (h : Derives k ts e) :
    Postfix.Reorders k ts e.postorder := by
  induction h with
  | num x => exact .num .nil
  | parens _ ih =>
    have := Postfix.Reorders.parens (k := .atom) ih .nil
    rwa [List.append_nil] at this
  | neg _ ih => exact .op .neg (Nat.le_refl _) .nil ih
  | binary b _ _ ihl ihr => exact .op (.binary b) (Nat.le_refl _) ihl ihr
  | signed _ ih => exact ih.weaken (by decide)
  | power _ ih => exact ih.weaken (by decide)
  | product _ ih => exact ih.weaken (by decide)
  | sum _ ih => exact ih.weaken (by decide)

/-! ## Placed tokens that are reordered are derived -/

namespace Postfix.Reorders
open Token

/-- No operand comes directly after another one. -/
theorem eq_nil_of_placed {b : Bool} {ts rpn : List Token} (h : Reorders .atom ts rpn)
    (hp : Placed true b ts) : ts = [] ∧ rpn = [] ∧ b = true := by
  cases h with
  | nil => exact ⟨rfl, rfl, hp.symm⟩
  | num _ => exact absurd hp.1 (by simp [follows, isBinary, isClosing])
  | parens _ _ => exact absurd hp.1 (by simp [follows, isBinary, isClosing])
  | op o ho _ _ => exact absurd ho o.not_atom

/-- What stands inside parentheses that are placed, and that nothing follows. -/
theorem placed_parens {a b : Bool} {us ts rpn : List Token} (ht : Reorders .atom ts rpn)
    (hp : Placed a b (.lparen :: (us ++ .rparen :: ts))) :
    Placed false true us ∧ ts = [] ∧ rpn = [] ∧ b = true := by
  obtain ⟨c, hu, hclose, hrest⟩ := placed_append.mp hp.2
  have hc : c = true := by simpa [follows, isBinary, isClosing] using hclose
  exact ⟨hc ▸ hu, ht.eq_nil_of_placed hrest⟩

/-- Nothing stands before a sign. -/
theorem eq_nil_of_due {ts rpn : List Token} (h : Reorders .atom ts rpn)
    (hp : Placed false false ts) : ts = [] ∧ rpn = [] := by
  cases h with
  | nil => exact ⟨rfl, rfl⟩
  | num h => exact absurd (h.eq_nil_of_placed hp.2).2.2 (by decide)
  | parens _ h => exact absurd (placed_parens h hp).2.2.2 (by decide)
  | op o ho _ _ => exact absurd ho o.not_atom

theorem derives {k : Level} {ts rpn : List Token} (h : Reorders k ts rpn)
    (hp : Placed false true ts) : ∃ e, Derives k ts e ∧ e.postorder = rpn := by
  induction h with
  | nil => cases hp
  | @num k x _ _ h _ =>
    obtain ⟨rfl, rfl, -⟩ := h.eq_nil_of_placed hp.2
    exact ⟨.num x, (Derives.num x).loosen k.tightness_le_atom, rfl⟩
  | @parens k us ts inner rpn _ ht ihu _ =>
    obtain ⟨hu, rfl, rfl, -⟩ := placed_parens ht hp
    obtain ⟨e, he, hpost⟩ := ihu hu
    refine ⟨e, (Derives.parens he).loosen k.tightness_le_atom, ?_⟩
    rw [hpost, List.append_nil]
  | @op k o ls rs l r ho hl _ ihl ihr =>
    obtain ⟨c, hpl, hop, hpr⟩ := placed_append.mp hp
    obtain ⟨f, hf, hpostf⟩ := ihr hpr
    rcases o with b | _
    · have hc : c = true := by simpa [follows, isBinary] using hop
      subst hc
      obtain ⟨e, he, hposte⟩ := ihl hpl
      refine ⟨.binary b e f, (Derives.binary b he hf).loosen ho, ?_⟩
      rw [Expr.postorder, hposte, hpostf]
    · have hc : c = false := by simpa [follows, isBinary, isClosing] using hop
      subst hc
      obtain ⟨rfl, rfl⟩ := hl.eq_nil_of_due hpl
      refine ⟨.neg f, (Derives.neg hf).loosen ho, ?_⟩
      rw [Expr.postorder, hpostf]; rfl

end Postfix.Reorders
end Calculator
