import Calculator.Postfix.Value
import Calculator.Proofs.Expr.Division
import Calculator.Proofs.Postfix.Contents
/- The shape of tokens is what is left when their numbers are forgotten. The reordering
   never looks at a number, so it goes the same way whatever is done to all of them
   (`ofTokens_mapNumber`). Two runs of the stack machine on tokens of one shape keep
   stacks of one height whatever stands in them, and fail for the same reason, as long
   as neither has to divide by zero (`run_abreast`). So of all errors that one is the
   only one that is a matter of the numbers (`shape_decides`). -/
namespace Calculator

namespace Token

/-- The token with `f` done to its number, if it is one. -/
def mapNumber (f : Float → Float) : Token → Token
  | .num x => .num (f x)
  | t => t

theorem mapNumber_of_not_number (f : Float → Float) {t : Token} (h : t.isNumber = false) :
    t.mapNumber f = t := by
  cases t with
  | num x => cases h
  | _ => rfl

theorem map_mapNumber (f : Float → Float) {ts : List Token} (h : ∀ t ∈ ts, t.isNumber = false) :
    ts.map (mapNumber f) = ts :=
  (List.map_congr_left fun t ht => mapNumber_of_not_number f (h t ht)).trans (List.map_id ts)

/-- The token with its number forgotten. -/
def shape (t : Token) : Token := t.mapNumber fun _ => 0

/-- Tokens of one shape are both numbers, or the same. -/
theorem shape_cases {t u : Token} (h : t.shape = u.shape) :
    (∃ x y, t = .num x ∧ u = .num y) ∨ t = u := by
  cases t <;> cases u
  case num.num x y => exact .inl ⟨x, y, rfl, rfl⟩
  all_goals first | exact .inr h | cases h

end Token

namespace Postfix
open Token

/-! ## Reordering -/

theorem step_mapNumber (f : Float → Float) (p : Pending) (t : Token) :
    p.step (t.mapNumber f) = (fun wq => (wq.1.map (mapNumber f), wq.2)) <$> p.step t := by
  rcases num_or_not t with ⟨x, rfl⟩ | ht
  · rfl
  · rw [mapNumber_of_not_number f ht]
    cases hs : p.step t with
    | error k => rfl
    | ok wq =>
      obtain ⟨w, q⟩ := wq
      exact congrArg (fun w => Except.ok (w, q)) (map_mapNumber f (step_not_number ht hs)).symm

theorem run_mapNumber (f : Float → Float) (p : Pending) (ts : List Token) :
    p.run (ts.map (mapNumber f)) = (·.map (mapNumber f)) <$> p.run ts := by
  induction ts generalizing p with
  | nil =>
    rw [List.map_nil, Pending.run]
    split
    · exact congrArg Except.ok (map_mapNumber f (ops_not_number p.line)).symm
    · rfl
  | cons t ts ih =>
    rw [List.map_cons, Pending.run_cons, Pending.run_cons, step_mapNumber]
    cases p.step t with
    | error k => rfl
    | ok wq =>
      obtain ⟨w, q⟩ := wq
      show prepend (w.map (mapNumber f)) (q.run (ts.map (mapNumber f))) = _ <$> prepend w (q.run ts)
      rw [map_prepend, ih]

theorem ofTokens_mapNumber (f : Float → Float) (ts : List Token) :
    ofTokens (ts.map (mapNumber f)) = (·.map (mapNumber f)) <$> ofTokens ts :=
  run_mapNumber f .start ts

/-- Tokens of one shape are put in orders of one shape, or refused for the same reason. -/
theorem ofTokens_shape {ts us : List Token} (h : ts.map shape = us.map shape) :
    (·.map shape) <$> ofTokens ts = (·.map shape) <$> ofTokens us := by
  have hts : ofTokens (ts.map shape) = (·.map shape) <$> ofTokens ts := ofTokens_mapNumber _ ts
  have hus : ofTokens (us.map shape) = (·.map shape) <$> ofTokens us := ofTokens_mapNumber _ us
  rw [← hts, h, hus]

/-! ## Two runs of the stack machine -/

/-- Two computations side by side: they come to results that are related, or fail for
    the same reason, or one of them divides by zero. -/
inductive Abreast {α β : Type} (S : α → β → Prop) : Except Error α → Except Error β → Prop
  | reaching {a : α} {b : β} : S a b → Abreast S (.ok a) (.ok b)
  | failing (k : Error) : Abreast S (.error k) (.error k)
  | leftDivides (r : Except Error β) : Abreast S (.error .divisionByZero) r
  | rightDivides (r : Except Error α) : Abreast S r (.error .divisionByZero)

theorem Abreast.bind {α β γ δ : Type} {S : α → β → Prop} {T : γ → δ → Prop}
    {r : Except Error α} {r' : Except Error β} {f : α → Except Error γ} {g : β → Except Error δ}
    (h : Abreast S r r') (hf : ∀ a b, S a b → Abreast T (f a) (g b)) :
    Abreast T (r >>= f) (r' >>= g) := by
  cases h with
  | reaching hs => exact hf _ _ hs
  | failing k => exact .failing k
  | leftDivides r' => exact .leftDivides _
  | rightDivides r => exact .rightDivides _

/-- An operator has a result on any two operands, unless it has to divide by zero. -/
theorem apply_abreast (b : BinaryOp) (x y x' y' : Float) :
    Abreast (fun _ _ => True) (b.apply x y) (b.apply x' y') := by
  cases hz : b.apply x y with
  | error k =>
    obtain ⟨-, -, rfl⟩ := Expr.apply_error hz
    exact .leftDivides _
  | ok z =>
    cases hz' : b.apply x' y' with
    | error k =>
      obtain ⟨-, -, rfl⟩ := Expr.apply_error hz'
      exact .rightDivides _
    | ok z' => exact .reaching trivial

/-- Stacks of one height. -/
def SameHeight (stack stack' : List Float) : Prop := stack.length = stack'.length

theorem step_abreast {stack stack' : List Float} {t u : Token} (hs : SameHeight stack stack')
    (h : t.shape = u.shape) : Abreast SameHeight (step stack t) (step stack' u) := by
  rcases shape_cases h with ⟨x, y, rfl, rfl⟩ | rfl
  · exact .reaching (congrArg Nat.succ hs)
  · cases t with
    | num x => exact .reaching (congrArg Nat.succ hs)
    | lparen => cases stack <;> cases stack' <;> exact .failing _
    | rparen => cases stack <;> cases stack' <;> exact .failing _
    | op o =>
      -- On stacks of one height an operator finds both operands twice, or neither time.
      match o, stack, stack', hs with
      | .neg, [], [], _ => exact .failing _
      | .binary b, [], [], _ => exact .failing _
      | .neg, x :: stack, y :: stack', hs => exact .reaching hs
      | .binary b, [x], [x'], _ => exact .failing _
      | .binary b, y :: x :: stack, y' :: x' :: stack', hs =>
        apply (apply_abreast b x y x' y').bind
        intro z z' _
        exact .reaching (Nat.succ.inj hs)

theorem run_abreast {stack stack' : List Float} {ts us : List Token}
    (hs : SameHeight stack stack') (h : ts.map shape = us.map shape) :
    Abreast SameHeight (run stack ts) (run stack' us) := by
  induction ts generalizing stack stack' us with
  | nil =>
    obtain rfl : us = [] := List.map_eq_nil_iff.mp h.symm
    exact .reaching hs
  | cons t ts ih =>
    cases us with
    | nil => cases h
    | cons u us =>
      obtain ⟨htu, h⟩ := List.cons_eq_cons.mp h
      exact (step_abreast hs htu).bind fun mid mid' hmid => ih hmid h

theorem value_abreast {ts us : List Token} (h : ts.map shape = us.map shape) :
    Abreast (fun _ _ => True) (value ts) (value us) := by
  apply (run_abreast (rfl : SameHeight [] []) h).bind
  intro stack stack' hs
  match stack, stack', hs with
  | [], [], _ => exact .failing _
  | [x], [y], _ => exact .reaching trivial
  | _ :: _ :: _, _ :: _ :: _, _ => exact .failing _

/-- Tokens of one shape, put in order and evaluated. -/
theorem evaluated_abreast {ts us : List Token} (h : ts.map shape = us.map shape) :
    Abreast (fun _ _ => True) (ofTokens ts >>= value) (ofTokens us >>= value) := by
  have hshape := ofTokens_shape h
  cases hts : ofTokens ts with
  | error k =>
    cases hus : ofTokens us with
    | error k' =>
      rw [hts, hus] at hshape
      cases hshape
      exact .failing k
    | ok rpn' =>
      rw [hts, hus] at hshape
      cases hshape
  | ok rpn =>
    cases hus : ofTokens us with
    | error k' =>
      rw [hts, hus] at hshape
      cases hshape
    | ok rpn' =>
      rw [hts, hus] at hshape
      exact value_abreast (Except.ok.inj hshape)

/-- Whatever is done to the numbers of any tokens, the reordering does the same with
    them, and if it refuses the tokens, for the same reason. And unless one of them
    divides by zero, tokens that differ in nothing but their numbers have a value
    together, or none for the same reason. -/
theorem shape_decides :
    (∀ (f : Float → Float) (ts : List Token),
      ofTokens (ts.map (mapNumber f)) = (·.map (mapNumber f)) <$> ofTokens ts) ∧
    ∀ ts us : List Token, ts.map shape = us.map shape →
      (ofTokens ts >>= value) ≠ .error .divisionByZero →
      (ofTokens us >>= value) ≠ .error .divisionByZero →
      (∃ x y, (ofTokens ts >>= value) = .ok x ∧ (ofTokens us >>= value) = .ok y) ∨
        ∃ k, (ofTokens ts >>= value) = .error k ∧ (ofTokens us >>= value) = .error k := by
  refine ⟨ofTokens_mapNumber, ?_⟩
  intro ts us h hts hus
  generalize hr : (ofTokens ts >>= value) = r at hts ⊢
  generalize hr' : (ofTokens us >>= value) = r' at hus ⊢
  have habreast : Abreast (fun _ _ => True) r r' := hr ▸ hr' ▸ evaluated_abreast h
  cases habreast with
  | reaching _ => exact .inl ⟨_, _, rfl, rfl⟩
  | failing k => exact .inr ⟨k, rfl, rfl⟩
  | leftDivides _ => exact absurd rfl hts
  | rightDivides _ => exact absurd rfl hus

/-- With its last operand missing `8 / 2 +` is refused as every list of its shape is,
    but those with a zero for a divisor. -/
theorem shape_decides_refused :
    [Token.num 8, .op (.binary .div), .num 2, .op (.binary .add)].map shape =
      [Token.num (1 / 0), .op (.binary .div), .num (0 / 0), .op (.binary .add)].map shape ∧
    (ofTokens [.num 8, .op (.binary .div), .num 2, .op (.binary .add)] >>= value) =
      .error .missingOperand ∧
    (ofTokens [.num (1 / 0), .op (.binary .div), .num (0 / 0), .op (.binary .add)] >>= value) =
      .error .missingOperand ∧
    (ofTokens [.num 8, .op (.binary .div), .num 0, .op (.binary .add)] >>= value) =
      .error .divisionByZero := by
  have hshape : [Token.num 8, .op (.binary .div), .num 2, .op (.binary .add)].map shape =
      [Token.num (1 / 0), .op (.binary .div), .num (0 / 0), .op (.binary .add)].map shape := rfl
  have hleft : (ofTokens [.num 8, .op (.binary .div), .num 2, .op (.binary .add)] >>= value) =
      .error .missingOperand := rfl
  have hright : (ofTokens [.num (1 / 0), .op (.binary .div), .num (0 / 0), .op (.binary .add)] >>=
      value) ≠ .error .divisionByZero := by
    intro h
    injection h with h
    cases h
  refine ⟨hshape, hleft, ?_, rfl⟩
  rcases shape_decides.2 _ _ hshape (by rw [hleft]; exact nofun) hright with
    ⟨x, -, hx, -⟩ | ⟨k, hk, hk'⟩
  · cases hleft.symm.trans hx
  · cases hleft.symm.trans hk
    exact hk'

end Postfix
end Calculator
