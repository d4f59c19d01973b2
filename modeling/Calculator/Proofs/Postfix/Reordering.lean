import Calculator.Expr.Grammar
import Calculator.Postfix.Ordering
import Calculator.Proofs.Outcome
/- What the reordering does to any tokens at all, said without its waiting
   operators. `Reorders k ts rpn` is the grammar of expressions with its
   operands set free: an operator takes all that stands before it and all that
   stands after it, as far as its level reaches, be that one operand, several or
   none. `ofTokens_eq_ok_iff`: the tokens that can be put in postfix order are
   those that the free grammar reads, and their order is the one it gives.

   The priorities enter only by `precedes_iff` and `not_precedes_iff`: an
   operator is written out before the next one when it can be the last of that
   one's left operand, and keeps waiting when the next one can be the last of
   its right operand. -/
namespace Calculator

/-! ## Levels of operators -/

/-- How tightly an expression of this level holds together. -/
def Level.tightness : Level → Nat
  | .sum => 1
  | .product => 2
  | .power => 3
  | .signed => 4
  | .atom => 5

theorem Level.tightness_le_atom (k : Level) : k.tightness ≤ Level.atom.tightness := by
  cases k <;> decide

theorem Level.sum_le_tightness (k : Level) : Level.sum.tightness ≤ k.tightness := by
  cases k <;> decide

namespace Op

/-- The level of an expression whose last operator this is. -/
def level : Op → Level
  | .binary b => b.level
  | .neg => .signed

/-- The level of what stands before the operator; a sign has nothing there. -/
def left : Op → Level
  | .binary b => b.left
  | .neg => .atom

/-- The level of what stands after the operator. -/
def right : Op → Level
  | .binary b => b.right
  | .neg => .signed

theorem level_le_left (o : Op) : o.level.tightness ≤ o.left.tightness := by
  rcases o with b | _
  · cases b <;> decide
  · decide

theorem level_le_right (o : Op) : o.level.tightness ≤ o.right.tightness := by
  rcases o with b | _
  · cases b <;> decide
  · decide

/-- An operator stands only inside of parentheses in an atom. -/
theorem not_atom (o : Op) : ¬ Level.atom.tightness ≤ o.level.tightness := by
  rcases o with b | _
  · cases b <;> decide
  · decide

theorem precedes_iff (waiting next : Op) :
    waiting.precedes next = true ↔ next.left.tightness ≤ waiting.level.tightness := by
  rcases waiting with b | _ <;> rcases next with c | _ <;> try cases b
  all_goals first | decide | (cases c <;> decide)

theorem not_precedes_iff (waiting next : Op) :
    waiting.precedes next = false ↔ waiting.right.tightness ≤ next.level.tightness := by
  rcases waiting with b | _ <;> rcases next with c | _ <;> try cases b
  all_goals first | decide | (cases c <;> decide)

end Op

namespace Postfix

/-- `Reorders k ts rpn`: the tokens `ts`, with operators of level `k` and
    tighter outside of parentheses, are `rpn` in postfix order. -/
inductive Reorders : Level → List Token → List Token → Prop
  | nil {k : Level} : Reorders k [] []
  | num {k : Level} {x : Float} {ts rpn : List Token} :
      Reorders .atom ts rpn → Reorders k (.num x :: ts) (.num x :: rpn)
  | parens {k : Level} {us ts inner rpn : List Token} :
      Reorders .sum us inner → Reorders .atom ts rpn →
      Reorders k (.lparen :: (us ++ .rparen :: ts)) (inner ++ rpn)
  | op {k : Level} (o : Op) {ls rs l r : List Token} :
      k.tightness ≤ o.level.tightness → Reorders o.left ls l → Reorders o.right rs r →
      Reorders k (ls ++ .op o :: rs) (l ++ r ++ [.op o])

namespace Reorders

/-- What a tighter level reads, a looser one reads too. -/
theorem weaken {j k : Level} {ts rpn : List Token} (h : Reorders j ts rpn)
    (hk : k.tightness ≤ j.tightness) : Reorders k ts rpn := by
  cases h with
  | nil => exact .nil
  | num h => exact .num h
  | parens h₁ h₂ => exact .parens h₁ h₂
  | op o ho hl hr => exact .op o (Nat.le_trans hk ho) hl hr

/-- Operands in a row stay in a row. -/
theorem append {ts us rpn r : List Token} (h : Reorders .atom ts rpn)
    (hu : Reorders .atom us r) : Reorders .atom (ts ++ us) (rpn ++ r) := by
  generalize hk : Level.atom = k at h
  induction h with
  | nil => subst hk; exact hu
  | num _ ih => exact .num (ih rfl)
  | parens hi _ _ ih =>
    rw [List.append_assoc, List.cons_append, List.append_assoc, List.cons_append]
    exact .parens hi (ih rfl)
  | op o ho _ _ _ _ => subst hk; exact absurd ho o.not_atom

end Reorders

/-! ## What the free grammar reads is put in its order -/

theorem Pending.run_cons (p : Pending) (t : Token) (ts : List Token) :
    p.run (t :: ts) = p.step t >>= fun wq => prepend wq.1 (wq.2.run ts) := by
  rw [Pending.run]
  cases p.step t with
  | error k => rfl
  | ok wq => cases wq.2.run ts <;> rfl

/-- A number is written out at once. -/
theorem Pending.run_num (p : Pending) (x : Float) (ts : List Token) :
    p.run (.num x :: ts) = prepend [.num x] (p.run ts) := by
  rw [Pending.run_cons]
  rfl

/-- No operator of level `k` or tighter writes out what waits in `p`. -/
def Pending.Holds (p : Pending) (k : Level) : Prop :=
  ∀ o ∈ p.line.head?, o.right.tightness ≤ k.tightness

theorem Pending.Holds.mono {p : Pending} {j k : Level} (h : p.Holds j)
    (hk : j.tightness ≤ k.tightness) : p.Holds k :=
  fun o ho => Nat.le_trans (h o ho) hk

/-- An operator writes out the line that its left operand left waiting, and
    nothing of what waited before. -/
theorem Pending.run_op (o : Op) (line : List Op) (p : Pending) (ts : List Token)
    (hl : ∀ q ∈ line, o.left.tightness ≤ q.level.tightness) (hp : p.Holds o.level) :
    (⟨line ++ p.line, p.outer⟩ : Pending).run (.op o :: ts) =
      prepend (line.map .op) ((⟨o :: p.line, p.outer⟩ : Pending).run ts) := by
  have hpop : ∀ q ∈ line, q.precedes o = true := fun q hq => (q.precedes_iff o).mpr (hl q hq)
  have hkeep : p.line.takeWhile (·.precedes o) = [] ∧ p.line.dropWhile (·.precedes o) = p.line := by
    cases h : p.line with
    | nil => exact ⟨rfl, rfl⟩
    | cons q qs =>
      have hq : q.precedes o = false := (q.not_precedes_iff o).mpr (hp q (by rw [h]; rfl))
      simp [hq]
  rw [Pending.run_cons]
  simp only [Pending.step, List.takeWhile_append_of_pos hpop, List.dropWhile_append_of_pos hpop,
    hkeep, List.append_nil]
  rfl

/-- The tokens of a free expression write out its postfix order but for the
    operators of the line they leave waiting. -/
theorem Reorders.run {k : Level} {ts rpn : List Token} (h : Reorders k ts rpn) :
    ∀ p : Pending, p.Holds k → ∃ (written : List Token) (line : List Op),
      written ++ line.map .op = rpn ∧ (∀ o ∈ line, k.tightness ≤ o.level.tightness) ∧
      ∀ rest, p.run (ts ++ rest) =
        prepend written ((⟨line ++ p.line, p.outer⟩ : Pending).run rest) := by
  induction h with
  | nil =>
    intro p _
    refine ⟨[], [], rfl, by simp, fun rest => ?_⟩
    rw [prepend_nil]; rfl
  | @num k x ts rpn _ ih =>
    intro p hp
    obtain ⟨w, line, hw, hl, hr⟩ := ih p (hp.mono k.tightness_le_atom)
    refine ⟨.num x :: w, line, by rw [← hw]; rfl, ?_, fun rest => ?_⟩
    · exact fun o ho => Nat.le_trans k.tightness_le_atom (hl o ho)
    · rw [List.cons_append, Pending.run_num, hr rest, prepend_prepend]; rfl
  | @parens k us ts inner rpn _ _ ihu iht =>
    intro p hp
    obtain ⟨wu, lineu, hwu, _, hru⟩ := ihu ⟨[], p.line :: p.outer⟩ (by simp [Pending.Holds])
    obtain ⟨wt, linet, hwt, hlt, hrt⟩ := iht p (hp.mono k.tightness_le_atom)
    refine ⟨inner ++ wt, linet, by rw [List.append_assoc, hwt], ?_, fun rest => ?_⟩
    · exact fun o ho => Nat.le_trans k.tightness_le_atom (hlt o ho)
    · have hclose : (⟨lineu, p.line :: p.outer⟩ : Pending).run (.rparen :: (ts ++ rest)) =
          prepend (lineu.map .op) (p.run (ts ++ rest)) := by rw [Pending.run_cons]; rfl
      rw [List.cons_append, Pending.run_cons]
      show prepend [] ((⟨[], p.line :: p.outer⟩ : Pending).run (us ++ .rparen :: ts ++ rest)) = _
      rw [prepend_nil, List.append_assoc, List.cons_append, hru, List.append_nil, hclose, hrt,
        prepend_prepend, prepend_prepend, hwu]
  | @op k o ls rs l r ho _ _ ihl ihr =>
    intro p hp
    have hpo : p.Holds o.level := hp.mono ho
    -- What the left operand leaves waiting goes out before `o`; what waited
    -- before it stays, because it holds against `o`.
    obtain ⟨wl, linel, hwl, hll, hrl⟩ := ihl p (hpo.mono o.level_le_left)
    obtain ⟨wr, liner, hwr, hlr, hrr⟩ := ihr ⟨o :: p.line, p.outer⟩ (by simp [Pending.Holds])
    refine ⟨wl ++ linel.map .op ++ wr, liner ++ [o], ?_, ?_, fun rest => ?_⟩
    · rw [← hwl, ← hwr]; simp
    · intro q hq
      rcases List.mem_append.mp hq with hq | hq
      · exact Nat.le_trans ho (Nat.le_trans o.level_le_right (hlr q hq))
      · rw [List.mem_singleton.mp hq]; exact ho
    · rw [List.append_assoc, List.cons_append, hrl, Pending.run_op o linel p _ hll hpo, hrr,
        prepend_prepend, prepend_prepend]
      simp

theorem Reorders.ofTokens {ts rpn : List Token} (h : Reorders .sum ts rpn) :
    ofTokens ts = .ok rpn := by
  obtain ⟨w, line, hw, _, hr⟩ := h.run Pending.start (by simp [Pending.Holds, Pending.start])
  have hr := hr []
  rw [List.append_nil] at hr
  rw [Postfix.ofTokens, hr]
  simp [Pending.run, Pending.start, hw]

/-! ## What is put in order is read by the free grammar -/

/-- `Segments line k us w`: inside one pair of parentheses the tokens `us` are
    cut by the operators of `line`, which wait, into free expressions. The last
    of these, after the most recent operator, is of level `k`; each other one can
    be what stands before the operator that follows it. `w` is what the tokens
    have written out. -/
inductive Segments : List Op → Level → List Token → List Token → Prop
  | first {k : Level} {ts rpn : List Token} : Reorders k ts rpn → Segments [] k ts rpn
  | next {k : Level} {line : List Op} {o : Op} {us ts w rpn : List Token} :
      Segments line o.left us w → (∀ q ∈ line.head?, q.right.tightness ≤ o.level.tightness) →
      Reorders k ts rpn → Segments (o :: line) k (us ++ .op o :: ts) (w ++ rpn)

namespace Segments

theorem weaken {line : List Op} {j k : Level} {us w : List Token} (h : Segments line j us w)
    (hk : k.tightness ≤ j.tightness) : Segments line k us w := by
  cases h with
  | first h => exact .first (h.weaken hk)
  | next hs hq h => exact .next hs hq (h.weaken hk)

/-- Operands are added to the last segment. -/
theorem append {line : List Op} {us w ts rpn : List Token} (h : Segments line .atom us w)
    (ht : Reorders .atom ts rpn) : Segments line .atom (us ++ ts) (w ++ rpn) := by
  cases h with
  | first h => exact .first (h.append ht)
  | next hs hq h =>
    rw [List.append_assoc, List.append_assoc, List.cons_append]
    exact .next hs hq (h.append ht)

/-- The most recent operator is written out: the two last segments become one. -/
theorem reduce {line : List Op} {o : Op} {k : Level} {us w : List Token}
    (h : Segments (o :: line) k us w) (hk : o.right.tightness ≤ k.tightness) :
    Segments line o.level us (w ++ [.op o]) ∧
      ∀ q ∈ line.head?, q.right.tightness ≤ o.level.tightness := by
  cases h with
  | next hs hq hr =>
    refine ⟨?_, hq⟩
    cases hs with
    | first hl => exact .first (.op o (Nat.le_refl _) hl (hr.weaken hk))
    | next hs' hq' hl =>
      have hm := Reorders.op o (Nat.le_refl _) hl (hr.weaken hk)
      have := Segments.next hs' hq' hm
      simpa only [List.append_assoc, List.cons_append] using this

/-- All operators of the line are written out: the segments become one. -/
theorem close {line : List Op} {k : Level} {us w : List Token} (h : Segments line k us w)
    (hk : ∀ q ∈ line.head?, q.right.tightness ≤ k.tightness) :
    Reorders .sum us (w ++ line.map .op) := by
  induction line generalizing k w with
  | nil =>
    cases h with
    | first h => rw [List.map_nil, List.append_nil]; exact h.weaken k.sum_le_tightness
  | cons o line ih =>
    obtain ⟨hs, hq⟩ := h.reduce (hk o rfl)
    have := ih hs hq
    rwa [List.append_assoc] at this

/-- The operators that go before `o` are written out, and `o` waits after them. -/
theorem push {line : List Op} {k : Level} {us w : List Token} (o : Op) (h : Segments line k us w)
    (hk : ∀ q ∈ line.head?, q.right.tightness ≤ k.tightness)
    (ho : o.left.tightness ≤ k.tightness) :
    Segments (o :: line.dropWhile (·.precedes o)) .atom (us ++ [.op o])
      (w ++ (line.takeWhile (·.precedes o)).map .op) := by
  -- On the line: an operator that goes before `o` is written out and the level of
  -- the last segment becomes its own, which is still tight enough for `o`.
  induction line generalizing k w with
  | nil => exact .next (h.weaken ho) (by simp) .nil
  | cons q line ih =>
    cases hp : q.precedes o with
    | true =>
      obtain ⟨hs, hq⟩ := h.reduce (hk q rfl)
      have := ih hs hq ((q.precedes_iff o).mp hp)
      simpa [hp] using this
    | false =>
      have hq : q.right.tightness ≤ o.level.tightness := (q.not_precedes_iff o).mp hp
      simp only [List.takeWhile_cons, List.dropWhile_cons, hp]
      exact .next (h.weaken ho) (by simpa using hq) .nil

end Segments

/-- `Reading p us w`: after the tokens `us`, which have written out `w`, the
    operators of `p` wait. Each open parenthesis keeps the segments before it. -/
inductive Reading : Pending → List Token → List Token → Prop
  | outside {line : List Op} {us w : List Token} :
      Segments line .atom us w → Reading ⟨line, []⟩ us w
  | inside {line above : List Op} {outer : List (List Op)} {us w us' w' : List Token} :
      Reading ⟨above, outer⟩ us' w' → Segments line .atom us w →
      Reading ⟨line, above :: outer⟩ (us' ++ .lparen :: us) (w' ++ w)

namespace Reading

/-- A change of the segments inside the innermost open parenthesis. -/
theorem extend {line line' : List Op} {outer : List (List Op)} {us w ts out : List Token}
    (h : Reading ⟨line, outer⟩ us w)
    (hs : ∀ {us w}, Segments line .atom us w → Segments line' .atom (us ++ ts) (w ++ out)) :
    Reading ⟨line', outer⟩ (us ++ ts) (w ++ out) := by
  cases h with
  | outside h => exact .outside (hs h)
  | inside h hi =>
    rw [List.append_assoc, List.append_assoc, List.cons_append]
    exact .inside h (hs hi)

theorem step {p q : Pending} {t : Token} {us w out : List Token} (h : Reading p us w)
    (hs : p.step t = .ok (out, q)) : Reading q (us ++ [t]) (w ++ out) := by
  obtain ⟨line, outer⟩ := p
  have hatom : ∀ o ∈ line.head?, o.right.tightness ≤ Level.atom.tightness :=
    fun o _ => o.right.tightness_le_atom
  cases t with
  | num x =>
    cases hs
    exact h.extend fun hi => hi.append (.num .nil)
  | op o =>
    cases hs
    exact h.extend fun hi => hi.push o hatom o.left.tightness_le_atom
  | lparen =>
    cases hs
    exact .inside h (.first .nil)
  | rparen =>
    cases h with
    | outside _ => cases hs
    | @inside _ above outer us w us' w' h hi =>
      cases hs
      -- The parenthesis becomes one operand of the segment around it.
      have hgroup : Reorders .atom (.lparen :: (us ++ [.rparen])) (w ++ line.map .op) := by
        have := Reorders.parens (k := .atom) (hi.close hatom) .nil
        rwa [List.append_nil] at this
      rw [List.append_assoc, List.append_assoc, List.cons_append]
      exact h.extend fun hs => hs.append hgroup

theorem run {p : Pending} {us w ts rpn : List Token} (h : Reading p us w)
    (hr : p.run ts = .ok rpn) : Reorders .sum (us ++ ts) (w ++ rpn) := by
  induction ts generalizing p us w rpn with
  | nil =>
    cases h with
    | outside hs =>
      cases hr
      rw [List.append_nil]
      exact hs.close fun o _ => o.right.tightness_le_atom
    | inside _ _ => cases hr
  | cons t ts ih =>
    rw [Pending.run_cons] at hr
    obtain ⟨⟨out, q⟩, hstep, hr⟩ := bind_eq_ok_iff.mp hr
    obtain ⟨rest, hrest, rfl⟩ := prepend_eq_ok_iff.mp hr
    have := ih (h.step hstep) hrest
    simpa only [List.append_assoc, List.cons_append, List.nil_append] using this

end Reading

/-- The postfix order of any tokens is that of the free grammar, and there is
    one exactly if the free grammar reads them. -/
theorem ofTokens_eq_ok_iff {ts rpn : List Token} :
    ofTokens ts = .ok rpn ↔ Reorders .sum ts rpn :=
  ⟨fun h => (Reading.outside (.first .nil)).run h, Reorders.ofTokens⟩

end Postfix
end Calculator
