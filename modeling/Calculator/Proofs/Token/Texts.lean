import Calculator.Proofs.Number.RoundTrip
import Calculator.Proofs.Token.Reading
/- What the text of tokens tells of them. No token has an empty text, so a list of
   tokens has one only if it has no tokens (`listText_eq_empty_iff`), and those that
   are read of a text are none exactly if the text is blank (`ofText_eq_nil_iff`). No
   token has a space in its text, so the texts of a list can be cut apart again
   (`splitOn_listText`), and no two tokens have one text (`text_injective`): a number
   is told from another by its sign and its digits, which are read as its rank, and
   from all that is no number by having a digit or being one of the three words. So a
   list of tokens is told by its text (`listText_injective`). -/
namespace Calculator
open Binary64

namespace Number

/-- The text of a finite number has its digits and at most a minus sign. -/
theorem text_chars {x : Float} (h : isFinite x = true) :
    (∃ c ∈ (text x).toList, Lexeme.isRunChar c = true) ∧
      ∀ c ∈ (text x).toList, Lexeme.isRunChar c = true ∨ c = '-' := by
  obtain ⟨d, hd⟩ := List.exists_mem_of_ne_nil _ (digits_ne_nil h)
  rw [toList_text h]
  split
  · refine ⟨⟨d, List.mem_cons_of_mem _ hd, digits_run x d hd⟩, fun c hc => ?_⟩
    rcases List.mem_cons.mp hc with rfl | hc
    · exact .inr rfl
    · exact .inl (digits_run x c hc)
  · exact ⟨⟨d, hd, digits_run x d hd⟩, fun c hc => .inl (digits_run x c hc)⟩

theorem text_mem_words {x : Float} (h : isFinite x = false) : text x ∈ words := by
  rw [text_not_finite h]
  cases isNaN x <;> cases isNegative x <;> decide

/-- No word is written in digits, points and minus signs. -/
theorem text_ne_of_isFinite {x y : Float} (hx : isFinite x = true) (hy : isFinite y = false) :
    text x ≠ text y := by
  intro h
  have hletter : words.all (fun w => w.toList.any fun c => !Lexeme.isRunChar c && c != '-') =
      true := by decide
  have hword := List.all_eq_true.mp hletter _ (text_mem_words hy)
  rw [← h] at hword
  obtain ⟨c, hc, hother⟩ := List.any_eq_true.mp hword
  rw [Bool.and_eq_true, Bool.not_eq_true', bne_iff_ne] at hother
  rcases (text_chars hx).2 c hc with hrun | hminus
  · rw [hother.1] at hrun
    cases hrun
  · exact hother.2 hminus

theorem sign_and_digits {x y : Float} (hx : isFinite x = true) (hy : isFinite y = true)
    (h : text x = text y) : isNegative x = isNegative y ∧ digits x = digits y := by
  have hminus (z : Float) : '-' ∉ digits z := fun hmem => by
    have hrun := digits_run z '-' hmem
    revert hrun
    decide
  have h := congrArg String.toList h
  rw [toList_text hx, toList_text hy] at h
  cases hnx : isNegative x <;> cases hny : isNegative y
  all_goals simp only [hnx, hny, if_true, Bool.false_eq_true, if_false] at h
  · exact ⟨rfl, h⟩
  · exact absurd (h ▸ List.mem_cons_self) (hminus x)
  · exact absurd (h ▸ List.mem_cons_self) (hminus y)
  · exact ⟨rfl, (List.cons_eq_cons.mp h).2⟩

/-- What is not finite is infinity of either sign, or it is not a number. -/
theorem rank_of_not_finite {x : Float} (h : isFinite x = false) (hn : isNaN x = false) :
    rank x = infinity := by
  have hfinite : ¬ rank x < infinity := of_decide_eq_false h
  have hnan : ¬ infinity < rank x := of_decide_eq_false hn
  omega

theorem eq_of_words {x y : Float} (hx : isFinite x = false) (hy : isFinite y = false)
    (h : text x = text y) : x = y := by
  rw [text_not_finite hx, text_not_finite hy] at h
  have hword : isNaN x = isNaN y ∧ (isNaN x = false → isNegative x = isNegative y) := by
    revert h
    cases isNaN x <;> cases isNaN y <;> cases isNegative x <;> cases isNegative y <;> decide
  obtain ⟨hnan, hsign⟩ := hword
  cases hn : isNaN x with
  | true =>
    have hny : isNaN y = true := hnan.symm.trans hn
    rw [eq_nan_of_isNaN hn, eq_nan_of_isNaN hny]
  | false =>
    have hny : isNaN y = false := hnan.symm.trans hn
    rw [← ofRank_rank x, ← ofRank_rank y, hsign hn, rank_of_not_finite hx hn,
      rank_of_not_finite hy hny]

theorem text_injective : Function.Injective text := by
  intro x y h
  cases hx : isFinite x <;> cases hy : isFinite y
  · exact eq_of_words hx hy h
  · exact absurd h.symm (text_ne_of_isFinite hy hx)
  · exact absurd h (text_ne_of_isFinite hx hy)
  · -- Both runs of digits are read as the magnitude that they were written for.
    obtain ⟨hsign, hdigits⟩ := sign_and_digits hx hy h
    have hread := read?_digits hx
    rw [hdigits, read?_digits hy] at hread
    have hrank := congrArg rank (Option.some.inj hread)
    rw [rank_ofRank false (of_decide_eq_true hx), rank_ofRank false (of_decide_eq_true hy)] at hrank
    rw [← ofRank_rank x, ← ofRank_rank y, hsign, hrank]

end Number

namespace Token

/-! ## Tokens -/

/-- The texts of the tokens that are no numbers. -/
def symbols : List String := ["+", "-", "*", "/", "^", "neg", "(", ")"]

theorem text_mem_symbols {t : Token} (h : t.isNumber = false) : t.text ∈ symbols := by
  cases t with
  | num x => cases h
  | op o => rcases o with (_ | _ | _ | _ | _) | _ <;> decide
  | lparen => decide
  | rparen => decide

/-- A number has a digit or a point in its text, or it is one of the words. -/
theorem number_text_not_mem_symbols (x : Float) : Number.text x ∉ symbols := by
  intro hmem
  cases hx : isFinite x with
  | true =>
    have hplain : symbols.all (fun s => s.toList.all fun c => !Lexeme.isRunChar c) = true := by
      decide
    obtain ⟨c, hc, hrun⟩ := (Number.text_chars hx).1
    have hsymbol := List.all_eq_true.mp (List.all_eq_true.mp hplain _ hmem) c hc
    rw [hrun] at hsymbol
    cases hsymbol
  | false =>
    have hapart : Number.words.all (fun w => !symbols.contains w) = true := by decide
    have hword := List.all_eq_true.mp hapart _ (Number.text_mem_words hx)
    simp [hmem] at hword

theorem eq_of_symbols {t u : Token} (ht : t.isNumber = false) (hu : u.isNumber = false)
    (h : t.text = u.text) : t = u := by
  rcases t with x | ((_ | _ | _ | _ | _) | _) | _ | _
  all_goals rcases u with y | ((_ | _ | _ | _ | _) | _) | _ | _
  all_goals
    first
    | rfl
    | exact Bool.noConfusion ht
    | exact Bool.noConfusion hu
    | exact absurd h (by decide)

/-- No two tokens have one text, not even the zeros of the two signs. -/
theorem text_injective : Function.Injective text := by
  intro t u h
  rcases num_or_not t with ⟨x, rfl⟩ | ht <;> rcases num_or_not u with ⟨y, rfl⟩ | hu
  · exact congrArg num (Number.text_injective h)
  · have hmem := text_mem_symbols hu
    rw [← h] at hmem
    exact absurd hmem (number_text_not_mem_symbols x)
  · have hmem := text_mem_symbols ht
    rw [h] at hmem
    exact absurd hmem (number_text_not_mem_symbols y)
  · exact eq_of_symbols ht hu h

/-- A token is a finite number, or its text is one of a few. -/
theorem finite_or_fixed (t : Token) :
    (∃ x, isFinite x = true ∧ t = .num x) ∨ t.text ∈ symbols ++ Number.words := by
  rcases num_or_not t with ⟨x, rfl⟩ | ht
  · cases hx : isFinite x with
    | true => exact .inl ⟨x, hx, rfl⟩
    | false => exact .inr (List.mem_append_right _ (Number.text_mem_words hx))
  · exact .inr (List.mem_append_left _ (text_mem_symbols ht))

theorem space_not_mem_text (t : Token) : ' ' ∉ t.text.toList := by
  have hfixed : (symbols ++ Number.words).all (fun s => !s.toList.contains ' ') = true := by decide
  intro hspace
  rcases t.finite_or_fixed with ⟨x, hx, rfl⟩ | htext
  · rcases (Number.text_chars hx).2 ' ' hspace with hrun | hminus
    · revert hrun
      decide
    · cases hminus
  · have hplain := List.all_eq_true.mp hfixed _ htext
    simp [hspace] at hplain

theorem text_ne_nil (t : Token) : t.text.toList ≠ [] := by
  have hfixed : (symbols ++ Number.words).all (fun s => s.toList ≠ []) = true := by decide
  rcases t.finite_or_fixed with ⟨x, hx, rfl⟩ | htext
  · obtain ⟨c, hc, -⟩ := (Number.text_chars hx).1
    exact List.ne_nil_of_mem hc
  · exact of_decide_eq_true (List.all_eq_true.mp hfixed _ htext)

/-- The texts of the tokens are what stands between the spaces. -/
theorem splitOn_listText {ts : List Token} (h : ts ≠ []) :
    (listText ts).toList.splitOn ' ' = ts.map fun t => t.text.toList := by
  rw [listText, String.toList_intercalate, List.map_map]
  apply List.splitOn_intercalate
  · intro w hw
    obtain ⟨t, -, rfl⟩ := List.mem_map.mp hw
    exact t.space_not_mem_text
  · simpa using h

theorem listText_eq_empty_iff {ts : List Token} : listText ts = "" ↔ ts = [] := by
  constructor
  · intro h
    have h := congrArg String.toList h
    rw [listText, String.toList_intercalate] at h
    match ts with
    | [] => rfl
    | [t] => exact absurd h (by simpa using t.text_ne_nil)
    | t :: u :: ts => simp [List.intercalate_cons_cons] at h
  · rintro rfl
    rfl

/-- Tokens are told by their text. -/
theorem listText_injective : Function.Injective listText := by
  intro ts us h
  -- The empty text comes first: cut at its spaces it is one piece and not none.
  by_cases hts : ts = []
  · have hus : listText us = "" := h ▸ listText_eq_empty_iff.mpr hts
    rw [hts, listText_eq_empty_iff.mp hus]
  · have hus : us ≠ [] := fun hnil =>
      hts (listText_eq_empty_iff.mp (h.trans (listText_eq_empty_iff.mpr hnil)))
    have hsplit := splitOn_listText hts
    rw [h, splitOn_listText hus] at hsplit
    exact List.map_injective_iff.mpr (fun t u htu => text_injective (String.toList_inj.mp htu))
      hsplit.symm

/-! ## Tokens of a blank text -/

theorem fuseSigns_eq_nil_iff {ts : List Token} : fuseSigns ts = [] ↔ ts = [] := by
  fun_cases fuseSigns ts <;> simp

theorem ofLexemes_eq_nil_iff {after : Bool} {ls : List Lexeme} {ts : List Token}
    (h : ofLexemes after ls = .ok ts) : ts = [] ↔ ls = [] := by
  cases ls with
  | nil => cases h; simp
  | cons l ls =>
    obtain ⟨t, us, -, -, rfl⟩ := eq_cons_of_ofLexemes h
    simp

theorem ofChars_eq_nil_iff {cs : List Char} : Lexeme.ofChars cs = [] ↔ cs = [] := by
  constructor
  · intro h
    have hchars := Lexeme.flatMap_chars_ofChars cs
    rw [h] at hchars
    exact hchars.symm
  · rintro rfl
    rfl

/-- A text that is not blank has a token, and blanks have none. -/
theorem ofText_eq_nil_iff {s : String} {ts : List Token} (h : ofText s = .ok ts) :
    ts = [] ↔ Text.allBlank s = true := by
  rw [ofText] at h
  obtain ⟨us, hu, h⟩ := bind_eq_ok_iff.mp h
  cases h
  rw [fuseSigns_eq_nil_iff, ofLexemes_eq_nil_iff hu, Lexeme.ofText, ofChars_eq_nil_iff,
    List.filter_eq_nil_iff, Text.allBlank, List.all_eq_true]
  simp

end Token
end Calculator
