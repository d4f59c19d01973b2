import Calculator.Proofs.Number.RoundTrip
import Calculator.Proofs.Token.Lexical
/- The tokens that are read of some text are told by their neighbours
   (`Readable`): numbers are finite and never stand side by side, a minus sign
   subtracts directly after an operand and nowhere else, and a sign directly before
   a number is always taken into it. All of this is about a token and the one before
   it, so it is proved along the list (`Chained`), first of the tokens with single
   signs, where no number is negative yet (`chained_ofLexemes`), then of what fusing
   makes of them (`chained_fuseSigns`). -/
namespace Calculator.Token
open Binary64

/-! ## Chains -/

/-- Every token may stand as `R` tells directly after the one before it, the first
    of them directly after `p`. -/
def Chained (R : Option Token → Token → Prop) : Option Token → List Token → Prop
  | _, [] => True
  | p, t :: ts => R p t ∧ Chained R (some t) ts

theorem chained_iff {R : Option Token → Token → Prop} {p : Option Token} {ts : List Token} :
    Chained R p ts ↔ (∀ t, ts.head? = some t → R p t) ∧
      ∀ t u, [t, u] <:+: ts → R (some t) u := by
  induction ts generalizing p with
  | nil => simp [Chained]
  | cons t ts ih =>
    rw [Chained, ih]
    constructor
    · intro h
      obtain ⟨ht, hhead, hpairs⟩ := h
      refine ⟨fun u hu => Option.some.inj hu ▸ ht, ?_⟩
      intro u v huv
      rcases pair_infix_cons.mp huv with ⟨rfl, hnext⟩ | hin
      · exact hhead v hnext
      · exact hpairs u v hin
    · intro h
      obtain ⟨hfirst, hpairs⟩ := h
      refine ⟨hfirst t rfl, ?_, ?_⟩
      · intro u hu
        exact hpairs t u (pair_infix_cons.mpr (.inl ⟨rfl, hu⟩))
      · intro u v huv
        exact hpairs u v (List.infix_cons huv)

theorem Chained.of_mem {R : Option Token → Token → Prop} {p : Option Token} {t : Token}
    {ts : List Token} (h : Chained R p ts) (ht : t ∈ ts) : ∃ q, R q t := by
  induction ts generalizing p with
  | nil => cases ht
  | cons u ts ih =>
    rcases List.mem_cons.mp ht with rfl | ht
    · exact ⟨p, h.1⟩
    · exact ih h.2 ht

/-! ## Neighbours -/

/-- Whether an operand stands directly before a place, when `p` is the token there. -/
def afterOperand (p : Option Token) : Bool := p.any endsOperand

theorem not_number_of_not_operand {p : Option Token} (h : afterOperand p = false) :
    p.any isNumber = false := by
  rcases p with _ | (x | _ | _ | _)
  case some.num => cases (h : true = false)
  all_goals rfl

/-- Whether a token may stand directly after `p`, or first, by its kind alone. -/
def Stands (p : Option Token) : Token → Prop
  | .num _ => p.any isNumber = false
  | .op (.binary .sub) => afterOperand p = true
  | .op .neg => afterOperand p = false
  | _ => True

/-- Whether a token may stand directly after `p`, or first, as long as the signs
    stand on their own. -/
structure StandsSingle (p : Option Token) (t : Token) : Prop where
  stands : Stands p t
  finite : ∀ x, t = .num x → isFinite x = true
  plain : ∀ x, t = .num x → isNegative x = false

/-- Whether a token may stand directly after `p`, or first, when every sign that
    stands directly before a number has been taken into it. -/
structure MayFollow (p : Option Token) (t : Token) : Prop where
  stands : Stands p t
  finite : ∀ x, t = .num x → isFinite x = true
  negative : ∀ x, t = .num x → isNegative x = true → afterOperand p = false
  unsigned : ∀ x, t = .num x → p = some (.op .neg) → isNegative x = true

/-- The tokens of a text, by their neighbours. A token ends an operand if it is a
    number or a closing parenthesis, and the others are the operators and the
    opening one. -/
structure Readable (ts : List Token) : Prop where
  finite : ∀ x, .num x ∈ ts → isFinite x = true
  apart : ∀ x y, ¬ [.num x, .num y] <:+: ts
  negative : ∀ t x, [t, .num x] <:+: ts → isNegative x = true → t.endsOperand = false
  unsigned : ∀ x, [.op .neg, .num x] <:+: ts → isNegative x = true
  first : ts.head? ≠ some (.op (.binary .sub))
  minus : ∀ t, [t, .op (.binary .sub)] <:+: ts → t.endsOperand = true
  sign : ∀ t, [t, .op .neg] <:+: ts → t.endsOperand = false

theorem Readable.mayFollow_first {ts : List Token} (h : Readable ts) {t : Token}
    (ht : ts.head? = some t) : MayFollow none t := by
  constructor
  case stands =>
    rcases t with x | (b | _) | _ | _
    case op.binary =>
      cases b with
      | sub => exact absurd ht h.first
      | _ => trivial
    all_goals trivial
  case finite =>
    intro x hx
    subst hx
    exact h.finite x (List.mem_of_head? ht)
  case negative =>
    intro x _ _
    rfl
  case unsigned =>
    intro x _ hp
    cases hp

theorem Readable.mayFollow {ts : List Token} (h : Readable ts) {t u : Token}
    (htu : [t, u] <:+: ts) : MayFollow (some t) u := by
  constructor
  case stands =>
    rcases u with x | (b | _) | _ | _
    case num =>
      cases t with
      | num y => exact absurd htu (h.apart y x)
      | _ => rfl
    case op.binary =>
      cases b with
      | sub => exact h.minus t htu
      | _ => trivial
    case op.neg => exact h.sign t htu
    all_goals trivial
  case finite =>
    intro x hx
    subst hx
    apply h.finite x
    exact htu.subset (by simp)
  case negative =>
    intro x hx
    subst hx
    exact h.negative t x htu
  case unsigned =>
    intro x hx hp
    subst hx
    cases hp
    exact h.unsigned x htu

theorem Chained.readable {ts : List Token} (h : Chained MayFollow none ts) : Readable ts := by
  obtain ⟨hfirst, hpairs⟩ := chained_iff.mp h
  constructor
  case finite =>
    intro x hx
    obtain ⟨p, hp⟩ := h.of_mem hx
    exact hp.finite x rfl
  case apart =>
    intro x y hxy
    have hnumber : true = false := (hpairs _ _ hxy).stands
    cases hnumber
  case negative =>
    intro t x htx
    exact (hpairs _ _ htx).negative x rfl
  case unsigned =>
    intro x hx
    exact (hpairs _ _ hx).unsigned x rfl rfl
  case first =>
    intro hsub
    have hoperand : false = true := (hfirst _ hsub).stands
    cases hoperand
  case minus =>
    intro t ht
    exact (hpairs _ _ ht).stands
  case sign =>
    intro t ht
    exact (hpairs _ _ ht).stands

theorem readable_iff {ts : List Token} : Readable ts ↔ Chained MayFollow none ts := by
  constructor
  · intro h
    apply chained_iff.mpr
    exact ⟨fun t ht => h.mayFollow_first ht, fun t u htu => h.mayFollow htu⟩
  · exact Chained.readable

/-! ## Single signs -/

theorem stands_ofSymbol {p : Option Token} {c : Char} {t : Token}
    (h : ofSymbol (afterOperand p) c = .ok t) : t.isNumber = false ∧ Stands p t := by
  rw [ofSymbol.eq_def] at h
  split at h <;> cases h <;> try exact ⟨rfl, trivial⟩
  -- The minus sign is left.
  cases hp : afterOperand p with
  | false => exact ⟨rfl, hp⟩
  | true => exact ⟨rfl, hp⟩

theorem standsSingle_ofLexeme {p : Option Token} {l : Lexeme} {t : Token}
    (hp : ∀ r, l = .run r → p.any isNumber = false)
    (h : ofLexeme (afterOperand p) l = .ok t) :
    StandsSingle p t ∧ (t.isNumber = true → ∃ r, l = .run r) := by
  cases l with
  | symbol c =>
    obtain ⟨hnum, ht⟩ := stands_ofSymbol h
    have hother (x : Float) : t ≠ .num x := by
      intro hx
      rw [hx] at hnum
      cases hnum
    refine ⟨⟨ht, fun x hx => absurd hx (hother x), fun x hx => absurd hx (hother x)⟩, ?_⟩
    intro hyes
    rw [hnum] at hyes
    cases hyes
  | run r =>
    rw [ofLexeme] at h
    split at h
    · next x hx =>
      cases h
      obtain ⟨hfinite, hplain⟩ := Number.of_read? hx
      refine ⟨⟨hp r rfl, ?_, ?_⟩, fun _ => ⟨r, rfl⟩⟩
      · intro y hy
        cases hy
        exact hfinite
      · intro y hy
        cases hy
        exact hplain
    · cases h

/-- A run never follows a run, so no number is read directly after a number. -/
theorem chained_ofLexemes {p : Option Token} {cs : List Char} {ls : List Lexeme}
    {ts : List Token} (hcut : Lexeme.Cut cs ls)
    (hp : ∀ r, ls.head? = some (.run r) → p.any isNumber = false)
    (h : ofLexemes (afterOperand p) ls = .ok ts) : Chained StandsSingle p ts := by
  induction ls generalizing p cs ts with
  | nil => cases h; trivial
  | cons l ls ih =>
    obtain ⟨t, us, ht, hus, rfl⟩ := eq_cons_of_ofLexemes h
    obtain ⟨hstands, hrun⟩ := standsSingle_ofLexeme (fun r hr => hp r (congrArg some hr)) ht
    refine ⟨hstands, ih hcut.tail ?_ hus⟩
    intro q hq
    apply Bool.eq_false_iff.mpr
    intro hnum
    obtain ⟨r, rfl⟩ := hrun hnum
    exact hcut.head_ne_run q hq

/-! ## Fused signs -/

/-- What may follow a number does not depend on the number. -/
theorem chained_num (x y : Float) {ts : List Token}
    (h : Chained StandsSingle (some (.num x)) ts) : Chained StandsSingle (some (.num y)) ts := by
  cases ts with
  | nil => trivial
  | cons t ts =>
    obtain ⟨⟨hstands, hfinite, hplain⟩, hrest⟩ := h
    have hkind : Stands (some (.num y)) t := by
      rcases t with z | (b | _) | _ | _
      case op.binary => cases b <;> exact hstands
      all_goals exact hstands
    exact ⟨⟨hkind, hfinite, hplain⟩, hrest⟩

/-- Fusing leaves no sign on its own directly before a number. -/
theorem chained_fuseSigns {p : Option Token} {ts : List Token} (h : Chained StandsSingle p ts)
    (hp : p = some (.op .neg) → ∀ x, ts.head? ≠ some (.num x)) :
    Chained MayFollow p (fuseSigns ts) := by
  induction ts using fuseSigns.induct generalizing p with
  | case1 x ts ih =>
    obtain ⟨⟨hsign, -, -⟩, ⟨-, hfinite, hplain⟩, hrest⟩ := h
    obtain ⟨hfinite, hnegative⟩ := Number.neg_bounds (hfinite x rfl) (hplain x rfl)
    have hfollow : MayFollow p (.num (-x)) := by
      refine ⟨not_number_of_not_operand hsign, ?_, fun _ _ _ => hsign, ?_⟩
      · intro y hy
        cases hy
        exact hfinite
      · intro y hy _
        cases hy
        exact hnegative
    refine ⟨hfollow, ih (chained_num x (-x) hrest) ?_⟩
    intro hnum
    cases hnum
  | case2 t ts hno ih =>
    rw [fuseSigns]
    · obtain ⟨⟨hstands, hfinite, hplain⟩, hrest⟩ := h
      have hfollow : MayFollow p t := by
        refine ⟨hstands, hfinite, ?_, ?_⟩
        · intro x hx hneg
          rw [hplain x hx] at hneg
          cases hneg
        · intro x hx hsign
          exact absurd (congrArg some hx) (hp hsign x)
      refine ⟨hfollow, ih hrest ?_⟩
      intro ht x hx
      obtain ⟨us, rfl⟩ := List.head?_eq_some_iff.mp hx
      exact hno x us (Option.some.inj ht) rfl
    · exact hno
  | case3 => trivial

/-- The tokens of a text stand among neighbours as they may. -/
theorem readable_ofText {s : String} {ts : List Token} (h : ofText s = .ok ts) :
    Readable ts := by
  rw [ofText] at h
  obtain ⟨us, hus, h⟩ := bind_eq_ok_iff.mp h
  cases h
  have hcut : Lexeme.Cut _ (Lexeme.ofText s) := Lexeme.cut_iff.mpr rfl
  have hus : ofLexemes (afterOperand none) (Lexeme.ofText s) = .ok us := hus
  have hsingle := chained_ofLexemes hcut (fun _ _ => rfl) hus
  apply readable_iff.mpr
  apply chained_fuseSigns hsingle
  intro hp
  cases hp

end Calculator.Token
