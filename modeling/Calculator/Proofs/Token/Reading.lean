import Calculator.Proofs.Outcome
import Calculator.Proofs.Token.Operands
import Calculator.Token.Reading
/- Reading from any place on. `readFrom after cs` is what is read of characters
   without blanks when `after` tells whether an operand stands directly before
   them. One equation each for what can come first: a run (`readFrom_run`), a run
   under a sign (`readFrom_signedRun`), a sign before anything else
   (`readFrom_sign`), another symbol (`readFrom_symbol`). A run ends where no
   further digit or point comes, which `Apart` says of what follows it. -/
namespace Calculator.Token
open Lexeme

/-- The tokens of characters without blanks, read from a given place on. -/
def readFrom (after : Bool) (cs : List Char) : Except Error (List Token) :=
  fuseSigns <$> ofLexemes after (ofChars cs)

theorem ofText_eq (s : String) :
    ofText s = readFrom false (s.toList.filter fun c => !Text.isBlank c) := by
  rw [ofText, readFrom, Lexeme.ofText]
  cases ofLexemes false (ofChars (s.toList.filter fun c => !Text.isBlank c)) <;> rfl

/-! ## Lexemes -/

/-- No run goes on in `cs`. -/
def Apart (cs : List Char) : Prop := ∀ c ∈ cs.head?, isRunChar c = false

theorem apart_nil : Apart [] := by
  intro c hc
  cases hc

theorem apart_cons {c : Char} {cs : List Char} (h : isRunChar c = false) : Apart (c :: cs) := by
  intro d hd
  obtain rfl : c = d := Option.some.inj hd
  exact h

theorem ofChars_symbol {c : Char} {cs : List Char} (h : isRunChar c = false) :
    ofChars (c :: cs) = .symbol c :: ofChars cs := by
  rw [ofChars, h]; rfl

/-- Lexemes that start apart do not take a run before them. -/
theorem extend_of_apart {c : Char} {ds : List Char} (h : Apart ds) :
    extend c (ofChars ds) = .run [c] :: ofChars ds := by
  cases ds with
  | nil => rfl
  | cons d ds => rw [ofChars_symbol (h d rfl)]; rfl

theorem ofChars_run {cs ds : List Char} (hne : cs ≠ []) (h : ∀ c ∈ cs, isRunChar c = true)
    (hd : Apart ds) : ofChars (cs ++ ds) = .run cs :: ofChars ds := by
  induction cs with
  | nil => exact absurd rfl hne
  | cons c cs ih =>
    obtain ⟨hc, h⟩ := List.forall_mem_cons.mp h
    rw [List.cons_append, ofChars, if_pos hc]
    cases cs with
    | nil => exact extend_of_apart hd
    | cons d cs => rw [ih (List.cons_ne_nil _ _) h]; rfl

theorem ofLexemes_cons {after : Bool} {l : Lexeme} {t : Token} (ls : List Lexeme)
    (h : ofLexeme after l = .ok t) :
    ofLexemes after (l :: ls) = prepend [t] (ofLexemes t.endsOperand ls) := by
  rw [ofLexemes, h]
  show (ofLexemes t.endsOperand ls >>= fun ts => pure (t :: ts)) = _
  cases ofLexemes t.endsOperand ls <;> rfl

theorem eq_cons_of_ofLexemes {after : Bool} {l : Lexeme} {ls : List Lexeme} {ts : List Token}
    (h : ofLexemes after (l :: ls) = .ok ts) :
    ∃ t us, ofLexeme after l = .ok t ∧ ofLexemes t.endsOperand ls = .ok us ∧ ts = t :: us := by
  rw [ofLexemes] at h
  obtain ⟨t, ht, h⟩ := bind_eq_ok_iff.mp h
  obtain ⟨us, hu, h⟩ := bind_eq_ok_iff.mp h
  cases h
  exact ⟨t, us, ht, hu, rfl⟩

/-! ## Signs -/

theorem fuseSigns_cons {t : Token} (ts : List Token) (h : t ≠ .op .neg) :
    fuseSigns (t :: ts) = t :: fuseSigns ts := by
  rw [fuseSigns]
  intro x us ht _
  exact h ht

theorem fuseSigns_prepend {t : Token} (r : Except Error (List Token)) (h : t ≠ .op .neg) :
    fuseSigns <$> prepend [t] r = prepend [t] (fuseSigns <$> r) := by
  cases r with
  | error k => rfl
  | ok ts => exact congrArg Except.ok (fuseSigns_cons ts h)

/-- What is read apart from a run does not start with a number. -/
theorem ofLexemes_head {after : Bool} {ds : List Char} {ts : List Token} (hd : Apart ds)
    (h : ofLexemes after (ofChars ds) = .ok ts) (x : Float) : ts.head? ≠ some (.num x) := by
  cases ds with
  | nil => cases h; simp
  | cons d ds =>
    rw [ofChars_symbol (hd d rfl)] at h
    obtain ⟨t, us, ht, -, rfl⟩ := eq_cons_of_ofLexemes h
    intro hx
    cases hx
    rw [ofLexeme, ofSymbol.eq_def] at ht
    split at ht <;> cases ht

theorem readFrom_symbol {after : Bool} {c : Char} {t : Token} (ds : List Char)
    (hc : isRunChar c = false) (ht : ofSymbol after c = .ok t) (hn : t ≠ .op .neg) :
    readFrom after (c :: ds) = prepend [t] (readFrom t.endsOperand ds) := by
  have hl : ofLexeme after (.symbol c) = .ok t := ht
  rw [readFrom, ofChars_symbol hc, ofLexemes_cons _ hl, fuseSigns_prepend _ hn]; rfl

theorem readFrom_run {after : Bool} {cs ds : List Char} {x : Float} (hne : cs ≠ [])
    (h : ∀ c ∈ cs, isRunChar c = true) (hx : Number.read? cs = some x) (hd : Apart ds) :
    readFrom after (cs ++ ds) = prepend [.num x] (readFrom true ds) := by
  have ht : ofLexeme after (.run cs) = .ok (.num x) := by rw [ofLexeme, hx]
  rw [readFrom, ofChars_run hne h hd, ofLexemes_cons _ ht, fuseSigns_prepend _ (by simp)]; rfl

theorem readFrom_sign {ds : List Char} (hd : Apart ds) :
    readFrom false ('-' :: ds) = prepend [.op .neg] (readFrom false ds) := by
  have ht : ofLexeme false (.symbol '-') = .ok (.op .neg) := rfl
  rw [readFrom, readFrom, ofChars_symbol (by decide), ofLexemes_cons _ ht]
  show fuseSigns <$> prepend [.op .neg] (ofLexemes false (ofChars ds)) = _
  cases h : ofLexemes false (ofChars ds) with
  | error k => rfl
  | ok ts =>
    refine congrArg Except.ok ?_
    show fuseSigns (.op .neg :: ts) = .op .neg :: fuseSigns ts
    -- The sign stays on its own, as no number comes next.
    rw [fuseSigns]
    intro x us _ hts
    exact ofLexemes_head hd h x (by rw [hts]; rfl)

theorem readFrom_signedRun {cs ds : List Char} {x : Float} (hne : cs ≠ [])
    (h : ∀ c ∈ cs, isRunChar c = true) (hx : Number.read? cs = some x) (hd : Apart ds) :
    readFrom false ('-' :: (cs ++ ds)) = prepend [.num (-x)] (readFrom true ds) := by
  have ht : ofLexeme false (.symbol '-') = .ok (.op .neg) := rfl
  have hu : ofLexeme false (.run cs) = .ok (.num x) := by rw [ofLexeme, hx]
  rw [readFrom, readFrom, ofChars_symbol (by decide), ofChars_run hne h hd, ofLexemes_cons _ ht]
  show fuseSigns <$> prepend [.op .neg] (ofLexemes false (.run cs :: ofChars ds)) = _
  rw [ofLexemes_cons _ hu, prepend_prepend]
  show fuseSigns <$> prepend [.op .neg, .num x] (ofLexemes true (ofChars ds)) = _
  cases ofLexemes true (ofChars ds) <;> rfl

/-! ## Signs stand only where an operand is due -/

theorem ofLexeme_ne_neg {l : Lexeme} {t : Token} (h : ofLexeme true l = .ok t) :
    t ≠ .op .neg := by
  intro ht
  subst ht
  cases l with
  | run cs =>
    rw [ofLexeme] at h
    split at h <;> cases h
  | symbol c =>
    rw [ofLexeme, ofSymbol.eq_def] at h
    split at h <;> cases h

theorem signsPlaced_ofLexemes {after : Bool} {ls : List Lexeme} {ts : List Token}
    (h : ofLexemes after ls = .ok ts) : SignsPlaced after ts := by
  induction ls generalizing after ts with
  | nil => cases h; trivial
  | cons l ls ih =>
    obtain ⟨t, us, ht, hu, rfl⟩ := eq_cons_of_ofLexemes h
    refine ⟨?_, ih hu⟩
    intro ha
    subst ha
    exact ofLexeme_ne_neg ht

theorem signsPlaced_fuseSigns {after : Bool} {ts : List Token} (h : SignsPlaced after ts) :
    SignsPlaced after (fuseSigns ts) := by
  induction ts using fuseSigns.induct generalizing after with
  | case1 x ts ih => exact ⟨fun _ => by simp, ih h.2.2⟩
  | case2 t ts hno ih =>
    rw [fuseSigns]
    · exact ⟨h.1, ih h.2⟩
    · exact hno
  | case3 => trivial

theorem signsPlaced_ofText {s : String} {ts : List Token} (h : ofText s = .ok ts) :
    SignsPlaced false ts := by
  rw [ofText] at h
  obtain ⟨us, hu, h⟩ := bind_eq_ok_iff.mp h
  cases h
  exact signsPlaced_fuseSigns (signsPlaced_ofLexemes hu)

end Calculator.Token
