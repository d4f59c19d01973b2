import Calculator.Postfix.Balance
/- Where operands stand among written tokens. After an operand an operator or a
   closing parenthesis is due, elsewhere an operand. `missing` counts the places
   where an operand is due and none comes, `surplus` those where one comes and
   none is due. However the tokens are mixed, the two counts make up for each
   other (`operands_count`): with its missing operands a list has one number more
   than operators between two operands, but for those in surplus. -/
namespace Calculator.Token

/-! ## Places -/

def isNumber : Token → Bool
  | .num _ => true
  | _ => false

theorem num_or_not (t : Token) : (∃ x, t = .num x) ∨ t.isNumber = false := by
  cases t with
  | num x => exact .inl ⟨x, rfl⟩
  | _ => exact .inr rfl

def isBinary : Token → Bool
  | .op (.binary _) => true
  | _ => false

/-- Whether an operand without a sign starts with this token. -/
def startsOperand : Token → Bool
  | .num _ => true
  | .lparen => true
  | _ => false

/-- Neighbours are the first two of a list, or they are further on. -/
theorem pair_infix_cons {α : Type} {a b c : α} {l : List α} :
    [a, b] <:+: c :: l ↔ (a = c ∧ l.head? = some b) ∨ [a, b] <:+: l := by
  have hhead : [b] <+: l ↔ l.head? = some b := by
    cases l with
    | nil => simp
    | cons d l => simp [List.cons_prefix_cons, eq_comm]
  rw [List.infix_cons_iff, List.cons_prefix_cons, hhead]

/-- An operand that directly follows another one. -/
def Juxtaposed (ts : List Token) : Prop :=
  ∃ t u, [t, u] <:+: ts ∧ t.endsOperand = true ∧ u.startsOperand = true

/-- The operands that are missing, when `after` tells whether one stands
    directly before the tokens. -/
def missing : Bool → List Token → Nat
  | after, [] => if after then 0 else 1
  | after, t :: ts =>
    (if !after && (t.isBinary || t.isClosing) then 1 else 0) + missing t.endsOperand ts

/-- The operands that directly follow another one. -/
def surplus : Bool → List Token → Nat
  | _, [] => 0
  | after, t :: ts => (if after && t.startsOperand then 1 else 0) + surplus t.endsOperand ts

/-- No sign stands directly after an operand, where it would subtract. -/
def SignsPlaced : Bool → List Token → Prop
  | _, [] => True
  | after, t :: ts => (after = true → t ≠ .op .neg) ∧ SignsPlaced t.endsOperand ts

/-- Each missing operand and each operator makes room for a number, and each
    number that is not in surplus fills one. -/
theorem operands_count {after : Bool} {ts : List Token} (h : SignsPlaced after ts) :
    ts.countP isNumber + missing after ts + after.toNat =
      ts.countP isBinary + 1 + surplus after ts := by
  induction ts generalizing after with
  | nil => cases after <;> rfl
  | cons t ts ih =>
    obtain ⟨hneg, h⟩ := h
    have ih := ih h
    rw [List.countP_cons, List.countP_cons, missing, surplus]
    rcases t with x | (b | _) | _ | _ <;> cases after <;>
      simp [isNumber, isBinary, isClosing, startsOperand, endsOperand] at ih hneg ⊢ <;> omega

theorem surplus_pos_of_juxtaposed {after : Bool} {ts : List Token} (h : Juxtaposed ts) :
    0 < surplus after ts := by
  obtain ⟨t, u, hin, ht, hu⟩ := h
  induction ts generalizing after with
  | nil => simp at hin
  | cons v ts ih =>
    rw [surplus]
    rcases pair_infix_cons.mp hin with ⟨rfl, hnext⟩ | hin
    · obtain ⟨rest, rfl⟩ := List.head?_eq_some_iff.mp hnext
      simp only [surplus, ht, hu, Bool.and_self, if_true]
      omega
    · have : 0 < surplus v.endsOperand ts := ih hin
      omega

theorem surplus_eq_zero {after : Bool} {ts : List Token} (h : ¬ Juxtaposed ts)
    (hfirst : after = true → ∀ t ∈ ts.head?, t.startsOperand = false) : surplus after ts = 0 := by
  induction ts generalizing after with
  | nil => rfl
  | cons t ts ih =>
    have hrest : surplus t.endsOperand ts = 0 := by
      refine ih (fun ⟨u, v, hin, huv⟩ => h ⟨u, v, List.infix_cons hin, huv⟩) fun ht u hu => ?_
      apply Bool.eq_false_iff.mpr
      intro hstarts
      exact h ⟨t, u, pair_infix_cons.mpr (.inl ⟨rfl, hu⟩), ht, hstarts⟩
    rw [surplus, hrest]
    cases after with
    | false => rfl
    | true => simp [hfirst rfl t rfl]

/-! ## Tokens that all stand where they may -/

/-- Whether a token may stand directly after an operand, or where one is due. -/
def follows (after : Bool) (t : Token) : Bool := after == (t.isBinary || t.isClosing)

/-- `Placed a b ts`: from a place after an operand, or where one is due as `a`
    tells, every token stands where it may, and the place at the end is `b`. -/
def Placed : Bool → Bool → List Token → Prop
  | a, b, [] => a = b
  | a, b, t :: ts => follows a t = true ∧ Placed t.endsOperand b ts

theorem placed_append {a b : Bool} {ts us : List Token} :
    Placed a b (ts ++ us) ↔ ∃ c, Placed a c ts ∧ Placed c b us := by
  induction ts generalizing a with
  | nil => exact ⟨fun h => ⟨a, rfl, h⟩, fun ⟨c, hc, h⟩ => by cases hc; exact h⟩
  | cons t ts ih =>
    simp only [List.cons_append, Placed, ih]
    exact ⟨fun ⟨ht, c, h⟩ => ⟨c, ⟨ht, h.1⟩, h.2⟩, fun ⟨c, h, hu⟩ => ⟨h.1, c, h.2, hu⟩⟩

/-- With no operand missing and none in surplus all tokens are placed. -/
theorem placed_of_counts {after : Bool} {ts : List Token} (hs : SignsPlaced after ts)
    (hm : missing after ts = 0) (hn : surplus after ts = 0) : Placed after true ts := by
  induction ts generalizing after with
  | nil =>
    cases after with
    | false => cases hm
    | true => rfl
  | cons t ts ih =>
    rw [missing, Nat.add_eq_zero_iff] at hm
    rw [surplus, Nat.add_eq_zero_iff] at hn
    refine ⟨?_, ih hs.2 hm.2 hn.2⟩
    have hneg := hs.1
    have hm := hm.1
    have hn := hn.1
    rcases t with x | (b | _) | _ | _ <;> cases after <;>
      simp_all [follows, isBinary, isClosing, startsOperand]

theorem Placed.head {a b : Bool} {ts : List Token} (h : Placed a b ts) {t : Token}
    (ht : ts.head? = some t) : follows a t = true := by
  cases ts with
  | nil => cases ht
  | cons u ts => cases ht; exact h.1

theorem Placed.last {a b : Bool} {ts : List Token} (h : Placed a b ts) {t : Token}
    (ht : ts.getLast? = some t) : t.endsOperand = b := by
  obtain ⟨us, rfl⟩ := List.getLast?_eq_some_iff.mp ht
  obtain ⟨c, -, -, h⟩ := placed_append.mp h
  exact h

theorem Placed.adjacent {a b : Bool} {ts : List Token} (h : Placed a b ts) {t u : Token}
    (hin : [t, u] <:+: ts) : follows t.endsOperand u = true := by
  obtain ⟨l, r, rfl⟩ := hin
  rw [List.append_assoc] at h
  obtain ⟨c, -, h⟩ := placed_append.mp h
  exact h.2.1

/-- No operand is missing: not before the first operator or after the last, not
    between two operators, and not inside a pair of parentheses. -/
structure Complete (ts : List Token) : Prop where
  first : ∀ b, ts.head? ≠ some (.op (.binary b))
  last : ∀ o, ts.getLast? ≠ some (.op o)
  between : ∀ o b, ¬ [.op o, .op (.binary b)] <:+: ts
  inside : ¬ [.lparen, .rparen] <:+: ts

theorem Placed.complete {ts : List Token} (h : Placed false true ts) : Complete ts where
  first _ hb := Bool.false_ne_true (h.head hb)
  last _ ho := Bool.false_ne_true (h.last ho)
  between _ _ hin := Bool.false_ne_true (h.adjacent hin)
  inside hin := Bool.false_ne_true (h.adjacent hin)

end Calculator.Token
