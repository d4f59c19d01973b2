import Calculator.Evaluation
import Calculator.Proofs.Number.Display
import Calculator.Proofs.Token.Image
/- What the result line shows can be typed again. For a finite number it is a run of
   digits and points that is read as the magnitude, in whichever way it was printed,
   under a minus sign if the number is negative and not zero (`toList_resultText`).
   Such a text is one number to the reader (`ofText_signedRun`), so it is evaluated to
   the number that was shown, but for the sign of zero (`evaluate_resultText`). The
   words for what is not finite are refused at their first letter. -/
namespace Calculator
open Binary64 Token

/-! ## Texts of one number -/

theorem Token.ofText_signedRun {s : String} {negative : Bool} {run : List Char} {x : Float}
    (hs : s.toList = if negative then '-' :: run else run) (hne : run ≠ [])
    (hrun : ∀ c ∈ run, Lexeme.isRunChar c = true) (hx : Number.read? run = some x) :
    ofText s = .ok [.num (if negative then -x else x)] := by
  have hwritten : written s = s.toList := by
    apply List.filter_eq_self.mpr
    intro c hc
    have hblank : Text.isBlank c = false := by
      rw [hs] at hc
      cases negative with
      | false => exact Text.isBlank_of_isRunChar (hrun c hc)
      | true =>
        rcases List.mem_cons.mp hc with rfl | hc
        · decide
        · exact Text.isBlank_of_isRunChar (hrun c hc)
    rw [hblank]
    rfl
  rw [ofText_of_written]
  show readFrom false (written s) = _
  rw [hwritten, hs]
  cases negative with
  | false =>
    have hread : readFrom false (run ++ []) = .ok [.num x] := readFrom_run hne hrun hx apart_nil
    rwa [List.append_nil] at hread
  | true =>
    have hread := readFrom_signedRun hne hrun hx apart_nil
    rwa [List.append_nil] at hread

theorem evaluate_of_number {s : String} {x : Float} (h : Token.ofText s = .ok [.num x]) :
    evaluate s = .ok x := by
  rw [evaluate, h]
  rfl

theorem evaluate_of_ofText_error {s : String} {k : Error} (h : Token.ofText s = .error k) :
    evaluate s = .error k := by
  rw [evaluate, h]
  rfl

namespace Number

/-! ## Result lines -/

theorem toList_resultText {x : Float} (h : isFinite x = true) :
    ∃ run, (resultText x).toList = (if isNegative x && !isZero x then '-' :: run else run) ∧
      run ≠ [] ∧ (∀ c ∈ run, Lexeme.isRunChar c = true) ∧
      read? run = some (ofRank false (rank x)) := by
  have hfinite : (decimal x).rank < infinity := by
    rw [rank_decimal]
    exact of_decide_eq_true h
  have hread := read?_decimal hfinite
  rw [rank_decimal] at hread
  refine ⟨(decimal x).text.toList, ?_, ?_, (decimal x).text_run, hread⟩
  · rw [resultText_eq h, toList_signed, showsSign]
  · intro hnil
    rw [hnil] at hread
    cases hread

/-- The number of a result line, read again, has lost the sign of zero and nothing
    else. -/
theorem evaluate_finite {x : Float} (h : isFinite x = true) :
    evaluate (resultText x) = .ok (if isZero x then 0 else x) := by
  obtain ⟨run, hs, hne, hrun, hread⟩ := toList_resultText h
  rw [evaluate_of_number (ofText_signedRun hs hne hrun hread)]
  congr 1
  cases hz : isZero x with
  | true =>
    have hrank : rank x = 0 := of_decide_eq_true hz
    rw [hrank, Bool.not_true, Bool.and_false, if_neg Bool.false_ne_true, if_pos rfl]
    decide +kernel
  | false =>
    cases hn : isNegative x with
    | false => exact magnitude_eq hn
    | true => exact neg_magnitude_eq h hn

/-- The result line shows the words for what is not finite as they are. -/
theorem resultText_not_finite {x : Float} (h : isFinite x = false) :
    resultText x = if isNaN x then "NaN" else if isNegative x then "-inf" else "inf" := by
  have hexact : ¬ isExact x = true := by
    rw [isExact, h]
    exact Bool.false_ne_true
  rw [resultText, if_neg hexact, text_not_finite h]

theorem evaluate_not_finite {x : Float} (h : isFinite x = false) :
    evaluate (resultText x) = .error (.unexpectedCharacter (if isNaN x then 'N' else 'i')) := by
  rw [resultText_not_finite h]
  apply evaluate_of_ofText_error
  cases isNaN x with
  | true =>
    rw [if_pos rfl, if_pos rfl]
    decide +kernel
  | false =>
    rw [if_neg Bool.false_ne_true, if_neg Bool.false_ne_true]
    cases isNegative x <;> decide +kernel

/-- What is not a number is not finite. -/
theorem ne_nan_of_isFinite {x : Float} (h : isFinite x = true) : x ≠ Float.nan := by
  intro hx
  subst hx
  exact absurd h (by decide +kernel)

/-- Two numbers that show the same result line are equal, as zeros of either sign are. -/
theorem beq_of_resultText {x y : Float} (hx : isFinite x = true) (hy : isFinite y = true)
    (h : resultText x = resultText y) : (x == y) = true := by
  have hread : (if isZero x then 0 else x) = if isZero y then 0 else y := by
    have heval := evaluate_finite hx
    rw [h, evaluate_finite hy] at heval
    exact (Except.ok.inj heval).symm
  have hzero (z : Float) : isZero z = true ↔ isZero (if isZero z then 0 else z) = true := by
    split
    · next hz => exact ⟨fun _ => by decide +kernel, fun _ => hz⟩
    · exact Iff.rfl
  rw [Float.beq_iff_ne_nan_and_eq]
  refine ⟨ne_nan_of_isFinite hx, ne_nan_of_isFinite hy, ?_⟩
  cases hz : isZero x with
  | true =>
    have hz' : isZero y = true := by rw [hzero, ← hread, ← hzero, hz]
    rcases eq_of_isZero hz with rfl | rfl <;> rcases eq_of_isZero hz' with rfl | rfl <;> simp
  | false =>
    have hz' : isZero y = false := by
      apply Bool.eq_false_iff.mpr
      intro hy'
      rw [hzero, ← hread, ← hzero, hz] at hy'
      cases hy'
    rw [hz, hz'] at hread
    exact .inl hread

/-- What the result line shows of a finite number is evaluated to that number, to the
    last bit, except that zero has no sign; so it shows the same line again, and
    numbers that show the same line are equal. What it shows of the others is refused
    at a letter. -/
theorem evaluate_resultText (x : Float) :
    (isFinite x = true → ∃ y, evaluate (resultText x) = .ok y ∧
      y.toBits = (if isZero x then 0 else x.toBits) ∧ resultText y = resultText x) ∧
    (∀ y, isFinite x = true → isFinite y = true → resultText x = resultText y →
      (x == y) = true) ∧
    (isFinite x = false →
      evaluate (resultText x) = .error (.unexpectedCharacter (if isNaN x then 'N' else 'i'))) := by
  refine ⟨fun h => ⟨_, evaluate_finite h, ?_, ?_⟩, fun y hx hy => beq_of_resultText hx hy,
    evaluate_not_finite⟩
  · split
    · decide +kernel
    · rfl
  · split
    · next hz => exact (resultText_of_isZero hz).2.symm
    · rfl

/-- The largest finite number, the two zeros, and infinity. -/
theorem evaluate_resultText_extremes :
    isFinite 1.7976931348623157e308 = true ∧
    (∃ y, evaluate (resultText 1.7976931348623157e308) = .ok y ∧
      y.toBits = (1.7976931348623157e308 : Float).toBits) ∧
    isFinite 0 = true ∧ isFinite (-0) = true ∧ resultText 0 = resultText (-0) ∧
    ((0 : Float) == -0) = true ∧
    isFinite (1 / 0) = false ∧
    evaluate (resultText (1 / 0)) = .error (.unexpectedCharacter 'i') := by
  have hlarge : isFinite 1.7976931348623157e308 = true := by decide +kernel
  have hzero : isFinite 0 = true ∧ isFinite (-0) = true := by decide +kernel
  have hsame : resultText 0 = resultText (-0) := by decide +kernel
  have hinf : isFinite (1 / 0) = false ∧ isNaN (1 / 0) = false := by decide +kernel
  obtain ⟨y, hy, hbits, -⟩ := (evaluate_resultText 1.7976931348623157e308).1 hlarge
  have hword := (evaluate_resultText (1 / 0)).2.2 hinf.1
  rw [hinf.2] at hword
  exact ⟨hlarge, ⟨y, hy, hbits.trans (by decide +kernel)⟩, hzero.1, hzero.2, hsame,
    (evaluate_resultText 0).2.1 (-0) hzero.1 hzero.2 hsame, hinf.1, hword⟩

end Number
end Calculator
