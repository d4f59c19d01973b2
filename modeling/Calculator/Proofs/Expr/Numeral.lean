import Calculator.Expr.Grammar
/- Numbers are read by the grammar: a run of digits and points is read as the
   number `x` exactly if it is a numeral of the grammar with that value
   (`numeral_iff_read?`). The reader looks for one point between digits; the
   grammar counts digits and points in the whole run. -/
namespace Calculator.Expr
open Binary64

theorem isDigit_ne_point {c : Char} (h : c.isDigit = true) : c ≠ '.' := by
  intro hc
  subst hc
  exact absurd h (by decide)

/-- A run consists of digits, or of digits up to its first point. -/
theorem run_cases {cs : List Char} (h : ∀ c ∈ cs, Lexeme.isRunChar c = true) :
    (∀ c ∈ cs, c.isDigit = true) ∨
      ∃ whole fraction, cs = whole ++ '.' :: fraction ∧ ∀ c ∈ whole, c.isDigit = true := by
  induction cs with
  | nil => exact .inl (by simp)
  | cons c cs ih =>
    have hc := h c List.mem_cons_self
    rw [Lexeme.isRunChar, Bool.or_eq_true, decide_eq_true_eq] at hc
    rcases hc with hc | rfl
    · rcases ih fun d hd => h d (List.mem_cons_of_mem c hd) with hall | ⟨whole, fraction, rfl, hall⟩
      · exact .inl (List.forall_mem_cons.mpr ⟨hc, hall⟩)
      · exact .inr ⟨c :: whole, fraction, rfl, List.forall_mem_cons.mpr ⟨hc, hall⟩⟩
    · exact .inr ⟨[], cs, rfl, by simp⟩

/-- Digits alone denote a whole number. -/
theorem ofRun?_digits {cs : List Char} (h : ∀ c ∈ cs, c.isDigit = true) :
    Decimal.ofRun? cs = if cs = [] then none else some (denoted cs) := by
  have htake : cs.takeWhile Char.isDigit = cs := by
    have : (cs ++ []).takeWhile Char.isDigit = cs ++ [] := List.takeWhile_append_of_pos h
    rwa [List.append_nil] at this
  have hdrop : cs.dropWhile Char.isDigit = [] := by
    have : (cs ++ []).dropWhile Char.isDigit = [] := List.dropWhile_append_of_pos h
    rwa [List.append_nil] at this
  simp only [Decimal.ofRun?, denoted, htake, hdrop, List.filter_eq_self.mpr h, List.countP_nil]

/-- Digits around a point denote a number with a place for each digit behind it. -/
theorem ofRun?_point {whole fraction : List Char} (h : ∀ c ∈ whole, c.isDigit = true) :
    Decimal.ofRun? (whole ++ '.' :: fraction) =
      if fraction.all Char.isDigit ∧ whole ++ fraction ≠ []
      then some (denoted (whole ++ '.' :: fraction)) else none := by
  have hpoint : Char.isDigit '.' = false := by decide
  have htake : (whole ++ '.' :: fraction).takeWhile Char.isDigit = whole := by
    rw [List.takeWhile_append_of_pos h, List.takeWhile_cons, hpoint]
    simp
  have hdrop : (whole ++ '.' :: fraction).dropWhile Char.isDigit = '.' :: fraction := by
    rw [List.dropWhile_append_of_pos h, List.dropWhile_cons, hpoint]
    simp
  rw [Decimal.ofRun?, htake, hdrop]
  simp only [true_and]
  split
  · next hf =>
    have hdigits : ∀ c ∈ fraction, c.isDigit = true := List.all_eq_true.mp hf.1
    rw [denoted, hdrop, List.filter_append, List.filter_eq_self.mpr h, List.filter_cons, hpoint,
      List.countP_cons, hpoint, List.countP_eq_length.mpr hdigits]
    simp [List.filter_eq_self.mpr hdigits]
  · rfl

/-- What the reader takes a run to denote. -/
theorem ofRun?_eq_some_iff {cs : List Char} {d : Decimal}
    (h : ∀ c ∈ cs, Lexeme.isRunChar c = true) :
    Decimal.ofRun? cs = some d ↔
      ((∃ c ∈ cs, c.isDigit = true) ∧ cs.count '.' ≤ 1) ∧ denoted cs = d := by
  rcases run_cases h with hall | ⟨whole, fraction, rfl, hall⟩
  · have hcount : cs.count '.' = 0 :=
      List.count_eq_zero.mpr fun hmem => isDigit_ne_point (hall _ hmem) rfl
    rw [ofRun?_digits hall, hcount]
    cases cs with
    | nil => simp
    | cons c cs => simp [hall c List.mem_cons_self]
  · have hwhole : whole.count '.' = 0 :=
      List.count_eq_zero.mpr fun hmem => isDigit_ne_point (hall _ hmem) rfl
    -- Behind the first point the digits are all there is if no second one comes.
    have hfraction : fraction.all Char.isDigit = true ↔ fraction.count '.' = 0 := by
      rw [List.all_eq_true, List.count_eq_zero]
      refine ⟨fun hd hmem => isDigit_ne_point (hd _ hmem) rfl, fun hno c hc => ?_⟩
      have hrun := h c (List.mem_append_right _ (List.mem_cons_of_mem _ hc))
      rw [Lexeme.isRunChar, Bool.or_eq_true, decide_eq_true_eq] at hrun
      exact hrun.resolve_right fun he => hno (he ▸ hc)
    have hpoint : (whole ++ '.' :: fraction).count '.' ≤ 1 ↔ fraction.count '.' = 0 := by
      rw [List.count_append, hwhole, List.count_cons_self]
      omega
    have hdigit : fraction.count '.' = 0 →
        ((∃ c ∈ whole ++ '.' :: fraction, c.isDigit = true) ↔ whole ++ fraction ≠ []) := by
      intro hno
      have hdigits := List.all_eq_true.mp (hfraction.mpr hno)
      constructor
      · intro h hnil
        obtain ⟨c, hc, hd⟩ := h
        obtain ⟨rfl, rfl⟩ := List.append_eq_nil_iff.mp hnil
        exact isDigit_ne_point hd (by simpa using hc)
      · intro hne
        obtain ⟨c, hc⟩ := List.exists_mem_of_ne_nil _ hne
        rcases List.mem_append.mp hc with hw | hf
        · exact ⟨c, List.mem_append_left _ hw, hall c hw⟩
        · exact ⟨c, List.mem_append_right _ (List.mem_cons_of_mem _ hf), hdigits c hf⟩
    rw [ofRun?_point hall]
    simp only [hfraction, hpoint]
    by_cases hno : fraction.count '.' = 0
    · rw [hdigit hno]
      by_cases hne : whole ++ fraction ≠ []
      · simp only [hno, hne, ne_eq, not_false_eq_true, and_self, if_true, true_and,
          Option.some.injEq]
      · simp only [hne, and_false, if_false, false_and, reduceCtorEq]
    · simp only [hno, false_and, if_false, and_false, reduceCtorEq]

theorem numeral_iff_read? {cs : List Char} {x : Float}
    (h : ∀ c ∈ cs, Lexeme.isRunChar c = true) :
    Numeral cs x ↔ Number.read? cs = some x := by
  rw [Number.read?]
  constructor
  · intro hn
    rw [(ofRun?_eq_some_iff h).mpr ⟨⟨hn.digit, hn.point⟩, rfl⟩, hn.nearest]
    exact if_pos hn.finite
  · intro hr
    cases hd : Decimal.ofRun? cs with
    | none => rw [hd] at hr; cases hr
    | some d =>
      obtain ⟨⟨hdigit, hpoint⟩, rfl⟩ := (ofRun?_eq_some_iff h).mp hd
      simp only [hd] at hr
      split at hr
      · next hfin =>
        exact ⟨h, hdigit, hpoint, hfin, (Option.some.inj hr).symm⟩
      · cases hr

/-- A run is a numeral for one number at most. -/
theorem Numeral.read? {cs : List Char} {x : Float} (h : Numeral cs x) :
    Number.read? cs = some x := (numeral_iff_read? h.run).mp h

theorem Numeral.ne_nil {cs : List Char} {x : Float} (h : Numeral cs x) : cs ≠ [] := by
  obtain ⟨c, hc, -⟩ := h.digit
  exact List.ne_nil_of_mem hc

end Calculator.Expr
