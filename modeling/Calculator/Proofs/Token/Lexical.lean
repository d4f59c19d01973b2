import Calculator.Proofs.Decimal.Value
import Calculator.Proofs.Token.Reading
/- The lexical grammar. Characters without blanks have one cut into runs, as long
   as they can be, and single symbols (`cut_iff`). Whether a lexeme is sound does
   not depend on where it stands: a symbol is by its character, a run by its
   digits, its points and its value. A text is read if all its lexemes are sound;
   if not, the first that is not says what is wrong (`ofText_by_lexemes`). -/
namespace Calculator

namespace Lexeme

/-! ## Cuts -/

/-- Runs are of digits and points, and symbols are all other characters. -/
def Formed : Lexeme → Prop
  | run r => r ≠ [] ∧ ∀ c ∈ r, isRunChar c = true
  | symbol c => isRunChar c = false

/-- The characters `cs` are cut into the lexemes `ls`, and no run goes on where it
    is cut off. -/
structure Cut (cs : List Char) (ls : List Lexeme) : Prop where
  chars : ls.flatMap chars = cs
  formed : ∀ l ∈ ls, l.Formed
  maximal : ∀ r q, ¬ [.run r, .run q] <:+: ls

namespace Cut

theorem nil : Cut [] [] where
  chars := rfl
  formed _ h := by cases h
  maximal r q h := by simp at h

theorem cons {cs : List Char} {l : Lexeme} {ls : List Lexeme} (hl : l.Formed) (h : Cut cs ls)
    (hapart : ∀ r q, l = .run r → ls.head? ≠ some (.run q)) : Cut (l.chars ++ cs) (l :: ls) where
  chars := by rw [List.flatMap_cons, h.chars]
  formed := List.forall_mem_cons.mpr ⟨hl, h.formed⟩
  maximal r q hin := by
    rcases Token.pair_infix_cons.mp hin with ⟨rfl, hnext⟩ | hin
    · exact hapart r q rfl hnext
    · exact h.maximal r q hin

theorem tail {cs : List Char} {l : Lexeme} {ls : List Lexeme} (h : Cut cs (l :: ls)) :
    Cut (ls.flatMap Lexeme.chars) ls where
  chars := rfl
  formed := (List.forall_mem_cons.mp h.formed).2
  maximal r q hin := h.maximal r q (List.infix_cons hin)

/-- No run follows a run. -/
theorem head_ne_run {cs r : List Char} {ls : List Lexeme} (h : Cut cs (.run r :: ls))
    (q : List Char) : ls.head? ≠ some (.run q) := by
  intro hq
  apply h.maximal r q
  exact Token.pair_infix_cons.mpr (.inl ⟨rfl, hq⟩)

theorem apart {cs r : List Char} {ls : List Lexeme} (h : Cut cs (.run r :: ls)) :
    Token.Apart (ls.flatMap Lexeme.chars) := by
  cases ls with
  | nil => exact Token.apart_nil
  | cons l ls =>
    cases l with
    | run q => exact absurd rfl (h.head_ne_run q)
    | symbol c => exact Token.apart_cons (h.formed (.symbol c) (by simp))

/-- A cut is the one by which the characters are read. -/
theorem eq_ofChars {cs : List Char} {ls : List Lexeme} (h : Cut cs ls) : ls = ofChars cs := by
  induction ls generalizing cs with
  | nil =>
    obtain rfl : [] = cs := h.chars
    rfl
  | cons l ls ih =>
    have hrest := ih h.tail
    have hl := h.formed l List.mem_cons_self
    obtain rfl := h.chars
    cases l with
    | run r =>
      show _ = ofChars (r ++ ls.flatMap Lexeme.chars)
      rw [Token.ofChars_run hl.1 hl.2 h.apart, ← hrest]
    | symbol c =>
      show _ = ofChars (c :: ls.flatMap Lexeme.chars)
      rw [Token.ofChars_symbol hl, ← hrest]

/-- A digit or a point makes the run that follows it longer, or is a new run. -/
theorem extend {c : Char} {cs : List Char} {ls : List Lexeme} (hc : isRunChar c = true)
    (h : Cut cs ls) : Cut (c :: cs) (Lexeme.extend c ls) := by
  have hnew : Formed (.run [c]) := ⟨List.cons_ne_nil c [], by simpa using hc⟩
  cases ls with
  | nil => exact h.cons hnew fun _ _ _ => by simp
  | cons l ls =>
    cases l with
    | run r =>
      have hr := h.formed (.run r) List.mem_cons_self
      have hlonger : Formed (.run (c :: r)) :=
        ⟨List.cons_ne_nil c r, List.forall_mem_cons.mpr ⟨hc, hr.2⟩⟩
      have hcut := h.tail.cons hlonger fun _ q _ => h.head_ne_run q
      have hchars : r ++ ls.flatMap Lexeme.chars = cs := h.chars
      rwa [Lexeme.chars, List.cons_append, hchars] at hcut
    | symbol d => exact h.cons hnew fun _ _ _ => by simp

end Cut

/-- The characters have one cut. -/
theorem cut_iff {cs : List Char} {ls : List Lexeme} : Cut cs ls ↔ ls = ofChars cs := by
  refine ⟨Cut.eq_ofChars, ?_⟩
  rintro rfl
  induction cs with
  | nil => exact Cut.nil
  | cons c cs ih =>
    rw [ofChars]
    split
    · next hc => exact ih.extend hc
    · next hc =>
      have hsymbol : Formed (.symbol c) := Bool.eq_false_iff.mpr hc
      exact ih.cons hsymbol fun r _ hr => by cases hr

/-! ## Sound lexemes -/

/-- A symbol is one of the alphabet; a run has a digit, at most one point, and a
    value that is rounded to a finite number. -/
def Sound : Lexeme → Prop
  | symbol c => c ∈ ['+', '-', '*', '/', '^', '(', ')']
  | run r => (∃ c ∈ r, c.isDigit = true) ∧ r.count '.' ≤ 1 ∧
      (Expr.denoted r).toRat < 2 ^ 1024 - 2 ^ 970

/-- What is wrong with a lexeme that is not sound; a run is named whole. -/
def offence : Lexeme → Error
  | symbol c => .unexpectedCharacter c
  | run r => .invalidNumber (String.ofList r)

theorem sound_run_iff {r : List Char} (h : ∀ c ∈ r, isRunChar c = true) :
    (run r).Sound ↔ ∃ x, Number.read? r = some x := by
  constructor
  · rintro ⟨hdigit, hpoint, hsmall⟩
    have hfinite := (Expr.denoted r).rank_lt_infinity_iff.mpr hsmall
    exact ⟨_, (Expr.numeral_iff_read? h).mp ⟨h, hdigit, hpoint, hfinite, rfl⟩⟩
  · rintro ⟨x, hx⟩
    have hnum := (Expr.numeral_iff_read? h).mpr hx
    exact ⟨hnum.digit, hnum.point, (Expr.denoted r).rank_lt_infinity_iff.mp hnum.finite⟩

/-- Lexemes that are not all sound have a first one that is not. -/
theorem all_sound_or_first (ls : List Lexeme) :
    (∀ l ∈ ls, l.Sound) ∨
      ∃ before l after, ls = before ++ l :: after ∧ (∀ m ∈ before, m.Sound) ∧ ¬ l.Sound := by
  induction ls with
  | nil => exact .inl fun l hl => by cases hl
  | cons l ls ih =>
    by_cases hl : l.Sound
    · rcases ih with hall | ⟨before, m, after, rfl, hbefore, hm⟩
      · exact .inl (List.forall_mem_cons.mpr ⟨hl, hall⟩)
      · exact .inr ⟨l :: before, m, after, rfl, List.forall_mem_cons.mpr ⟨hl, hbefore⟩, hm⟩
    · exact .inr ⟨[], l, ls, rfl, (fun m hm => by cases hm), hl⟩

end Lexeme

namespace Token
open Lexeme

theorem ofSymbol_cases (after : Bool) (c : Char) :
    ((symbol c).Sound ∧ ∃ t, ofSymbol after c = .ok t) ∨
      (¬ (symbol c).Sound ∧ ofSymbol after c = .error (symbol c).offence) := by
  rw [ofSymbol.eq_def]
  split
  all_goals first
    | exact .inl ⟨by simp [Sound], _, rfl⟩
    | exact .inr ⟨by simp_all [Sound], rfl⟩

/-- A lexeme has a token if it is sound, whether an operand stands before it or
    not. -/
theorem ofLexeme_cases (after : Bool) {l : Lexeme} (h : l.Formed) :
    (l.Sound ∧ ∃ t, ofLexeme after l = .ok t) ∨
      (¬ l.Sound ∧ ofLexeme after l = .error l.offence) := by
  cases l with
  | symbol c => exact ofSymbol_cases after c
  | run r =>
    rw [sound_run_iff h.2, ofLexeme]
    cases Number.read? r with
    | some x => exact .inl ⟨⟨x, rfl⟩, .num x, rfl⟩
    | none => exact .inr ⟨by simp, rfl⟩

theorem ofLexemes_ok {after : Bool} {ls : List Lexeme} (hf : ∀ l ∈ ls, l.Formed)
    (hs : ∀ l ∈ ls, l.Sound) : ∃ ts, ofLexemes after ls = .ok ts := by
  induction ls generalizing after with
  | nil => exact ⟨[], rfl⟩
  | cons l ls ih =>
    obtain ⟨hl, hf⟩ := List.forall_mem_cons.mp hf
    obtain ⟨hsl, hs⟩ := List.forall_mem_cons.mp hs
    rcases ofLexeme_cases after hl with ⟨-, t, ht⟩ | ⟨hno, -⟩
    · obtain ⟨ts, hts⟩ : ∃ ts, ofLexemes t.endsOperand ls = .ok ts := ih hf hs
      exact ⟨t :: ts, by rw [ofLexemes_cons ls ht, hts]; rfl⟩
    · exact absurd hsl hno

/-- The first lexeme that is not sound decides the error. -/
theorem ofLexemes_error {after : Bool} {before rest : List Lexeme} {l : Lexeme}
    (hf : ∀ m ∈ before ++ l :: rest, m.Formed) (hs : ∀ m ∈ before, m.Sound) (hl : ¬ l.Sound) :
    ofLexemes after (before ++ l :: rest) = .error l.offence := by
  induction before generalizing after with
  | nil =>
    rcases ofLexeme_cases after (hf l (by simp)) with ⟨hyes, -⟩ | ⟨-, he⟩
    · exact absurd hyes hl
    · rw [List.nil_append, ofLexemes, he]
      rfl
  | cons m before ih =>
    obtain ⟨hm, hf⟩ := List.forall_mem_cons.mp hf
    obtain ⟨hsm, hs⟩ := List.forall_mem_cons.mp hs
    rcases ofLexeme_cases after hm with ⟨-, t, ht⟩ | ⟨hno, -⟩
    · rw [List.cons_append, ofLexemes_cons _ ht, ih hf hs]
      rfl
    · exact absurd hsm hno

/-! ## Texts -/

/-- The characters of a text that are not blank. -/
def written (s : String) : List Char := s.toList.filter fun c => !Text.isBlank c

theorem ofText_of_written (s : String) :
    ofText s = fuseSigns <$> ofLexemes false (ofChars (written s)) := ofText_eq s

theorem formed_written (s : String) : ∀ l ∈ ofChars (written s), l.Formed :=
  (cut_iff.mpr rfl).formed

theorem ofText_of_sound {s : String} (h : ∀ l ∈ ofChars (written s), l.Sound) :
    ∃ ts, ofText s = .ok ts := by
  obtain ⟨ts, hts⟩ : ∃ ts, ofLexemes false (ofChars (written s)) = .ok ts :=
    ofLexemes_ok (formed_written s) h
  exact ⟨fuseSigns ts, by rw [ofText_of_written, hts]; rfl⟩

theorem ofText_of_offence {s : String} {before after : List Lexeme} {l : Lexeme}
    (h : ofChars (written s) = before ++ l :: after) (hb : ∀ m ∈ before, m.Sound)
    (hl : ¬ l.Sound) : ofText s = .error l.offence := by
  have hf := formed_written s
  rw [h] at hf
  rw [ofText_of_written, h, ofLexemes_error hf hb hl]
  rfl

/-- Reading is stopped by a lexeme only. -/
theorem ofText_error {s : String} {k : Error} (h : ofText s = .error k) :
    ∃ l : Lexeme, k = l.offence := by
  rcases all_sound_or_first (ofChars (written s)) with hall | ⟨before, l, after, he, hb, hl⟩
  · obtain ⟨ts, hts⟩ := ofText_of_sound hall
    rw [hts] at h
    cases h
  · rw [ofText_of_offence he hb hl] at h
    exact ⟨l, (Except.error.inj h).symm⟩

/-- The characters of a text that are not blank have one cut, and it decides what
    is read. The text has tokens if all lexemes of the cut are sound, and if not,
    the error is that of the first one that is not. Blanks change nothing. -/
theorem ofText_by_lexemes (s : String) :
    ∃ ls, (∀ ms, Cut (written s) ms ↔ ms = ls) ∧
      ((∃ ts, ofText s = .ok ts) ↔ ∀ l ∈ ls, l.Sound) ∧
      (∀ k, ofText s = .error k ↔ ∃ before l after,
        ls = before ++ l :: after ∧ (∀ m ∈ before, m.Sound) ∧ ¬ l.Sound ∧ k = l.offence) ∧
      ∀ t, written t = written s → ofText t = ofText s := by
  have hcases := all_sound_or_first (ofChars (written s))
  refine ⟨ofChars (written s), fun ms => cut_iff, ⟨?_, ofText_of_sound⟩, fun k => ⟨?_, ?_⟩, ?_⟩
  · intro hok
    obtain ⟨ts, hts⟩ := hok
    rcases hcases with hall | ⟨before, l, after, he, hb, hl⟩
    · exact hall
    · rw [ofText_of_offence he hb hl] at hts
      cases hts
  · intro hk
    rcases hcases with hall | ⟨before, l, after, he, hb, hl⟩
    · obtain ⟨ts, hts⟩ := ofText_of_sound hall
      rw [hts] at hk
      cases hk
    · rw [ofText_of_offence he hb hl] at hk
      exact ⟨before, l, after, he, hb, hl, (Except.error.inj hk).symm⟩
  · intro hfirst
    obtain ⟨before, l, after, he, hb, hl, hk⟩ := hfirst
    rw [hk]
    exact ofText_of_offence he hb hl
  · intro t ht
    rw [ofText_of_written, ofText_of_written, ht]

end Token
end Calculator
