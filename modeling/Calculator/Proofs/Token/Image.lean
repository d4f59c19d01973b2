import Calculator.Proofs.Token.Neighbours
import Calculator.Proofs.Token.Texts
/- Which tokens can be read, and from which text. A list whose tokens stand among
   neighbours as they may is read token for token from the characters by which its
   tokens are typed (`readFrom_typed`): no two runs touch, and a minus sign is taken
   for what it was written for. The spaces of a token text and its word for the sign
   are all that sets it apart from these characters (`written_retyped`), so every
   list of tokens that is read of some text is also read of its own
   (`ofText_image`). -/
namespace Calculator

theorem Text.isBlank_of_isRunChar {c : Char} (h : Lexeme.isRunChar c = true) :
    isBlank c = false := by
  rw [Lexeme.isRunChar, Bool.or_eq_true, decide_eq_true_eq] at h
  rcases h with hdigit | hpoint
  · have hbounds : 48 ≤ c.toNat ∧ c.toNat ≤ 57 := Char.isDigit_iff_toNat.mp hdigit
    simp only [isBlank, blankRanges, inRanges, Bool.and_eq_false_imp, decide_eq_true_eq,
      Bool.or_eq_false_iff, decide_eq_false_iff_not]
    omega
  · rw [hpoint]
    decide

namespace Token
open Binary64 Lexeme

/-! ## Characters of tokens -/

/-- The characters by which a token is typed. -/
def typed : Token → List Char
  | .op .neg => ['-']
  | t => t.text.toList

/-- A token but the sign is typed by its text. -/
theorem typed_eq {t : Token} (h : t ≠ .op .neg) : typed t = t.text.toList := by
  rcases t with x | (b | _) | _ | _
  case op.neg => exact absurd rfl h
  all_goals rfl

theorem typed_num {x : Float} (h : isFinite x = true) :
    typed (.num x) =
      if isNegative x then '-' :: Number.digits x else Number.digits x := Number.toList_text h

/-- Every other token is typed by one character, and where it may stand it is read
    from it. -/
theorem typed_symbol {t : Token} (h : t.isNumber = false) :
    ∃ c, typed t = [c] ∧ isRunChar c = false ∧ (symbol c).Sound ∧
      ∀ p, Stands p t → ofSymbol (afterOperand p) c = .ok t := by
  rcases t with x | (b | _) | _ | _
  case num => cases h
  case op.binary =>
    cases b with
    | add => exact ⟨'+', rfl, by decide, by simp [Sound], fun _ _ => rfl⟩
    | sub =>
      refine ⟨'-', rfl, by decide, by simp [Sound], ?_⟩
      intro p hp
      have hafter : afterOperand p = true := hp
      rw [hafter]
      rfl
    | mul => exact ⟨'*', rfl, by decide, by simp [Sound], fun _ _ => rfl⟩
    | div => exact ⟨'/', rfl, by decide, by simp [Sound], fun _ _ => rfl⟩
    | pow => exact ⟨'^', rfl, by decide, by simp [Sound], fun _ _ => rfl⟩
  case op.neg =>
    refine ⟨'-', rfl, by decide, by simp [Sound], ?_⟩
    intro p hp
    have hafter : afterOperand p = false := hp
    rw [hafter]
    rfl
  case lparen => exact ⟨'(', rfl, by decide, by simp [Sound], fun _ _ => rfl⟩
  case rparen => exact ⟨')', rfl, by decide, by simp [Sound], fun _ _ => rfl⟩

theorem typed_chars {t : Token} (h : ∀ x, t = .num x → isFinite x = true) :
    ∀ c ∈ typed t, isRunChar c = true ∨ (symbol c).Sound := by
  intro c hc
  rcases num_or_not t with ⟨x, rfl⟩ | ht
  · rw [typed_num (h x rfl)] at hc
    split at hc
    · rcases List.mem_cons.mp hc with hminus | hc
      · right
        simp [Sound, hminus]
      · left
        exact Number.digits_run x c hc
    · left
      exact Number.digits_run x c hc
  · obtain ⟨d, hd, -, hsound, -⟩ := typed_symbol ht
    rw [hd, List.mem_singleton] at hc
    right
    rw [hc]
    exact hsound

theorem typed_not_blank {t : Token} (h : ∀ x, t = .num x → isFinite x = true) :
    ∀ c ∈ typed t, Text.isBlank c = false := by
  intro c hc
  rcases typed_chars h c hc with hrun | hsound
  · exact Text.isBlank_of_isRunChar hrun
  · have hall : ['+', '-', '*', '/', '^', '(', ')'].all (fun d => !Text.isBlank d) = true := by
      decide
    simpa using List.all_eq_true.mp hall c hsound

/-! ## Reading typed tokens -/

/-- Neither a number nor a sign is followed by a run. -/
theorem apart_typed {t : Token} {ts : List Token} (h : Chained MayFollow (some t) ts)
    (ht : t.isNumber = true ∨ t = .op .neg) : Apart (ts.flatMap typed) := by
  cases ts with
  | nil => exact apart_nil
  | cons u ts =>
    obtain ⟨hu, -⟩ := h
    rw [List.flatMap_cons]
    rcases num_or_not u with ⟨x, rfl⟩ | hsymbol
    · have hnumber : t.isNumber = false := hu.stands
      have hneg : t = .op .neg := ht.resolve_left (Bool.eq_false_iff.mp hnumber)
      have hx := hu.unsigned x rfl (congrArg some hneg)
      rw [typed_num (hu.finite x rfl), if_pos hx, List.cons_append]
      exact apart_cons (by decide)
    · obtain ⟨c, hc, hrun, -, -⟩ := typed_symbol hsymbol
      rw [hc, List.singleton_append]
      exact apart_cons hrun

theorem readFrom_typed_num {p : Option Token} {x : Float} {ds : List Char}
    (h : MayFollow p (.num x)) (hd : Apart ds) :
    readFrom (afterOperand p) (typed (.num x) ++ ds) = prepend [.num x] (readFrom true ds) := by
  have hfinite := h.finite x rfl
  have hne := Number.digits_ne_nil hfinite
  have hrun := Number.digits_run x
  have hread := Number.read?_digits hfinite
  rw [typed_num hfinite]
  split
  · next hx =>
    have hsigned := readFrom_signedRun hne hrun hread hd
    rw [Number.neg_magnitude_eq hfinite hx] at hsigned
    rw [h.negative x rfl hx, List.cons_append]
    exact hsigned
  · next hx =>
    rw [Number.magnitude_eq (Bool.eq_false_iff.mpr hx)] at hread
    exact readFrom_run hne hrun hread hd

/-- One token is read from its characters where it may stand, and the rest of the
    tokens from the rest of the characters. -/
theorem readFrom_typed_cons {p : Option Token} {t : Token} {ds : List Char}
    (h : MayFollow p t) (hd : t.isNumber = true ∨ t = .op .neg → Apart ds) :
    readFrom (afterOperand p) (typed t ++ ds) = prepend [t] (readFrom t.endsOperand ds) := by
  by_cases hneg : t = .op .neg
  · subst hneg
    have hafter : afterOperand p = false := h.stands
    rw [hafter]
    exact readFrom_sign (hd (.inr rfl))
  · rcases num_or_not t with ⟨x, rfl⟩ | ht
    · exact readFrom_typed_num h (hd (.inl rfl))
    · obtain ⟨c, hc, hrun, -, hsymbol⟩ := typed_symbol ht
      rw [hc, List.singleton_append]
      exact readFrom_symbol ds hrun (hsymbol p h.stands) hneg

theorem readFrom_typed {p : Option Token} {ts : List Token} (h : Chained MayFollow p ts) :
    readFrom (afterOperand p) (ts.flatMap typed) = .ok ts := by
  induction ts generalizing p with
  | nil => rfl
  | cons t ts ih =>
    obtain ⟨ht, hrest⟩ := h
    have hread : readFrom t.endsOperand (ts.flatMap typed) = .ok ts := ih hrest
    rw [List.flatMap_cons, readFrom_typed_cons ht (apart_typed hrest), hread]
    rfl

/-! ## Token texts -/

/-- The text with every word `neg` written as a minus sign. -/
def retyped (s : String) : String :=
  String.ofList ([' '].intercalate
    ((s.toList.splitOn ' ').map fun w => if w = "neg".toList then ['-'] else w))

/-- The word for the sign is the text of no other token. -/
theorem text_ne_neg {t : Token} (h : ∀ x, t = .num x → isFinite x = true)
    (ht : t ≠ .op .neg) : t.text.toList ≠ "neg".toList := by
  intro hword
  have hn : 'n' ∈ typed t := by
    rw [typed_eq ht, hword]
    decide
  rcases typed_chars h 'n' hn with hrun | hsound
  · revert hrun
    decide
  · simp [Sound] at hsound

theorem retyped_word {t : Token} (h : ∀ x, t = .num x → isFinite x = true) :
    (if t.text.toList = "neg".toList then ['-'] else t.text.toList) = typed t := by
  by_cases ht : t = .op .neg
  · subst ht
    rfl
  · rw [if_neg (text_ne_neg h ht), typed_eq ht]

theorem toList_retyped_listText {ts : List Token} (h : ∀ x, .num x ∈ ts → isFinite x = true) :
    (retyped (listText ts)).toList = [' '].intercalate (ts.map typed) := by
  cases ts with
  | nil => rfl
  | cons t ts =>
    rw [retyped, String.toList_ofList, splitOn_listText (List.cons_ne_nil t ts), List.map_map]
    congr 1
    apply List.map_congr_left
    intro u hu
    apply retyped_word
    rintro x rfl
    exact h x hu

/-- Leaving out the blanks leaves what the tokens are typed by. -/
theorem filter_intercalate {ws : List (List Char)} (h : ∀ w ∈ ws, ∀ c ∈ w, Text.isBlank c = false) :
    ([' '].intercalate ws).filter (fun c => !Text.isBlank c) = ws.flatten := by
  induction ws with
  | nil => rfl
  | cons w ws ih =>
    obtain ⟨hw, hws⟩ := List.forall_mem_cons.mp h
    have hkeep : w.filter (fun c => !Text.isBlank c) = w :=
      List.filter_eq_self.mpr fun c hc => by rw [hw c hc]; rfl
    cases ws with
    | nil => rw [List.intercalate_singleton, hkeep, List.flatten_singleton]
    | cons v ws =>
      have hspace : [' '].filter (fun c => !Text.isBlank c) = [] := by decide
      rw [List.intercalate_cons_cons, List.filter_append, List.filter_append, ih hws, hkeep,
        hspace, List.append_nil]
      rfl

theorem written_retyped {ts : List Token} (h : ∀ x, .num x ∈ ts → isFinite x = true) :
    written (retyped (listText ts)) = ts.flatMap typed := by
  rw [written, toList_retyped_listText h, filter_intercalate, List.flatMap_def]
  intro w hw
  obtain ⟨t, ht, rfl⟩ := List.mem_map.mp hw
  apply typed_not_blank
  rintro x rfl
  exact h x ht

/-- A list of tokens is read of some text exactly if its tokens stand among
    neighbours as they may, and then it is read of its own text, with the word for
    the sign written as a minus sign. -/
theorem ofText_image (ts : List Token) :
    ((∃ s, ofText s = .ok ts) ↔ Readable ts) ∧
      (Readable ts → ofText (retyped (listText ts)) = .ok ts) := by
  have hread (h : Readable ts) : ofText (retyped (listText ts)) = .ok ts := by
    have hchars := readFrom_typed (readable_iff.mp h)
    rw [← written_retyped h.finite] at hchars
    rw [ofText_eq]
    exact hchars
  refine ⟨⟨?_, fun h => ⟨_, hread h⟩⟩, hread⟩
  rintro ⟨s, hs⟩
  exact readable_ofText hs

end Token
end Calculator
