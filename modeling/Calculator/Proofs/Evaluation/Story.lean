import Calculator.Evaluation
import Calculator.Proofs.Postfix.Balance
import Calculator.Proofs.Postfix.Blocks
import Calculator.Proofs.Postfix.Height
import Calculator.Proofs.Token.Lexical
import Calculator.Proofs.Token.Texts
/- The story of an evaluation. It ends where its first stage fails, or with a value
   or the want of one, and its result, its trace and its records are those of the
   stages it got to (`story_of`). And the trace alone tells the stage: for a text
   that is not blank there is no text of tokens exactly if they were not read, and
   none of the postfix order, which is a list without parentheses, exactly if that
   was not reached or if there was nothing but parentheses (`telling_of`). -/
namespace Calculator
open Token

/-- A text has no tokens but parentheses, and they are balanced. -/
def OnlyParens (s : String) : Prop :=
  ∃ ts, Token.ofText s = .ok ts ∧ (∀ t ∈ ts, t.isParen = true) ∧ Balanced ts

namespace Evaluation

/-- What an evaluation of `s` leaves, by the stage at which it ends. -/
inductive Story (s : String) : Evaluation → Prop
  /-- The tokens cannot be read. -/
  | unread {k : Error} (hts : Token.ofText s = .error k) : Story s ⟨.error k, .empty, [.failed s k]⟩
  /-- They cannot be put in postfix order. -/
  | unordered {ts : List Token} {k : Error} (hts : Token.ofText s = .ok ts)
      (hrpn : Postfix.ofTokens ts = .error k) :
      Story s ⟨.error .unbalancedParentheses, ⟨listText ts, ""⟩,
        [.tokens (listText ts), .failed s .unbalancedParentheses]⟩
  | valued {ts rpn : List Token} {v : Float} (hts : Token.ofText s = .ok ts)
      (hrpn : Postfix.ofTokens ts = .ok rpn) (hv : Postfix.value rpn = .ok v) :
      Story s ⟨.ok v, ⟨listText ts, listText rpn⟩, [.tokens (listText ts), .rpn (listText rpn)]⟩
  | unvalued {ts rpn : List Token} {k : Error} (hts : Token.ofText s = .ok ts)
      (hrpn : Postfix.ofTokens ts = .ok rpn) (hk : Postfix.value rpn = .error k) :
      Story s ⟨.error k, ⟨listText ts, listText rpn⟩,
        [.tokens (listText ts), .rpn (listText rpn), .failed s k]⟩

theorem story_of (s : String) : Story s (.of s) := by
  unfold Evaluation.of
  cases hts : Token.ofText s with
  | error k => exact .unread hts
  | ok ts =>
    cases hrpn : Postfix.ofTokens ts with
    | error k =>
      obtain rfl := Postfix.run_error hrpn
      simp only [hrpn]
      exact .unordered hts hrpn
    | ok rpn =>
      simp only [hrpn]
      cases hv : Postfix.value rpn with
      | ok v => exact .valued hts hrpn hv
      | error k => exact .unvalued hts hrpn hv

/-- No evaluation goes without a record. -/
theorem Story.records_ne_nil {s : String} {e : Evaluation} (h : Story s e) : e.records ≠ [] := by
  cases h <;> exact List.cons_ne_nil _ _

/-- What the texts of the trace tell of an evaluation. -/
structure Telling (s : String) (e : Evaluation) : Prop where
  tokens : e.trace.tokens = "" ↔ ∃ k, Token.ofText s = .error k
  rpn : (e.trace.tokens ≠ "" ∧ e.trace.rpn = "") ↔
    (e.result = .error .unbalancedParentheses ∨ OnlyParens s)
  /-- Parentheses alone have no value. -/
  parens : OnlyParens s → e.result = .error .malformed

theorem tokens_text_ne {s : String} {ts : List Token} (hs : Text.allBlank s = false)
    (hts : Token.ofText s = .ok ts) : listText ts ≠ "" := by
  rw [Ne, listText_eq_empty_iff, ofText_eq_nil_iff hts, hs]
  exact Bool.false_ne_true

/-- There is nothing in postfix order exactly if there are only parentheses, which
    are balanced then. -/
theorem rpn_eq_nil_iff {s : String} {ts rpn : List Token} (hts : Token.ofText s = .ok ts)
    (hrpn : Postfix.ofTokens ts = .ok rpn) : rpn = [] ↔ OnlyParens s := by
  have hr := Postfix.ofTokens_eq_ok_iff.mp hrpn
  rw [hr.eq_nil_iff]
  constructor
  · intro hparens
    exact ⟨ts, hts, hparens, hr.balanced⟩
  · rintro ⟨us, hus, hparens, -⟩
    obtain rfl := Except.ok.inj (hts.symm.trans hus)
    exact hparens

/-- Reading is never stopped by parentheses that are not balanced. -/
theorem ofText_ne_unbalanced (s : String) :
    Token.ofText s ≠ .error .unbalancedParentheses := by
  intro h
  obtain ⟨l, hl⟩ := ofText_error h
  cases l <;> cases hl

theorem telling_of_unread {s : String} {k : Error} (hts : Token.ofText s = .error k)
    (records : List Record) : Telling s ⟨.error k, .empty, records⟩ := by
  have hparens : ¬ OnlyParens s := by
    rintro ⟨ts, hok, -⟩
    cases hts.symm.trans hok
  refine ⟨⟨fun _ => ⟨k, hts⟩, fun _ => rfl⟩, ⟨fun h => absurd rfl h.1, ?_⟩,
    fun h => absurd h hparens⟩
  rintro (hk | h)
  · obtain rfl := Except.error.inj hk
    exact absurd hts (ofText_ne_unbalanced s)
  · exact absurd h hparens

theorem telling_of_unordered {s : String} {ts : List Token} {k : Error}
    (hs : Text.allBlank s = false) (hts : Token.ofText s = .ok ts)
    (hrpn : Postfix.ofTokens ts = .error k) (records : List Record) :
    Telling s ⟨.error .unbalancedParentheses, ⟨listText ts, ""⟩, records⟩ := by
  have hne := tokens_text_ne hs hts
  refine ⟨⟨fun h => absurd h hne, ?_⟩, ⟨fun _ => .inl rfl, fun _ => ⟨hne, rfl⟩⟩, ?_⟩
  · rintro ⟨k', hk⟩
    cases hts.symm.trans hk
  · rintro ⟨us, hus, -, hb⟩
    obtain rfl := Except.ok.inj (hts.symm.trans hus)
    obtain ⟨rpn, hok⟩ := Postfix.ofTokens_of_balanced hb
    cases hrpn.symm.trans hok

theorem telling_of_ordered {s : String} {ts rpn : List Token} (hs : Text.allBlank s = false)
    (hts : Token.ofText s = .ok ts) (hrpn : Postfix.ofTokens ts = .ok rpn)
    (records : List Record) :
    Telling s ⟨Postfix.value rpn, ⟨listText ts, listText rpn⟩, records⟩ := by
  have hne := tokens_text_ne hs hts
  have hnil : listText rpn = "" ↔ OnlyParens s :=
    listText_eq_empty_iff.trans (rpn_eq_nil_iff hts hrpn)
  refine ⟨⟨fun h => absurd h hne, ?_⟩, ⟨fun h => .inr (hnil.mp h.2), ?_⟩, ?_⟩
  · rintro ⟨k, hk⟩
    cases hts.symm.trans hk
  · rintro (hk | h)
    · have hkind := Postfix.value_error (Postfix.ofTokens_eq_ok_iff.mp hrpn).not_paren hk
      simp at hkind
    · exact ⟨hne, hnil.mpr h⟩
  · intro h
    obtain rfl := (rpn_eq_nil_iff hts hrpn).mpr h
    rfl

theorem Story.telling {s : String} {e : Evaluation} (h : Story s e)
    (hs : Text.allBlank s = false) : Telling s e := by
  cases h with
  | unread hts => exact telling_of_unread hts _
  | unordered hts hrpn => exact telling_of_unordered hs hts hrpn _
  | valued hts hrpn hv => exact hv ▸ telling_of_ordered hs hts hrpn _
  | unvalued hts hrpn hk => exact hk ▸ telling_of_ordered hs hts hrpn _

end Evaluation
end Calculator
