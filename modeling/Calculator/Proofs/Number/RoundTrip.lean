import Calculator.Proofs.Binary64.Signs
import Calculator.Proofs.Decimal.RoundTrip
/- Numbers written and read again. The text of a finite number is a run of digits
   and points, under a minus sign if the number is negative (`toList_text`). The
   run alone is read as the magnitude (`read?_digits`), which is the number itself
   or its negation. Nothing else is ever read than finite numbers without a sign
   (`of_read?`). -/
namespace Calculator.Number
open Binary64

/-- A run denotes a finite number without a sign. -/
theorem of_read? {run : List Char} {x : Float} (h : read? run = some x) :
    isFinite x = true ∧ isNegative x = false := by
  unfold read? at h
  split at h
  · cases h
  · next d _ =>
    split at h
    · next hd =>
      obtain rfl : ofRank false d.rank = x := Option.some.inj h
      rw [isFinite, rank_ofRank false hd]
      exact ⟨decide_eq_true hd, isNegative_ofRank false hd⟩
    · cases h

/-- The digits of a finite number, without its sign. -/
def digits (x : Float) : List Char := (Decimal.shortest (rank x)).text.toList

theorem digits_run (x : Float) : ∀ c ∈ digits x, Lexeme.isRunChar c = true :=
  Decimal.text_run _

theorem text_finite {x : Float} (h : isFinite x = true) :
    text x = signed (isNegative x) (Decimal.shortest (rank x)).text := by
  have hnan : ¬ isNaN x = true := fun hnan =>
    Nat.lt_asymm (of_decide_eq_true h) (of_decide_eq_true hnan)
  rw [text, if_neg hnan, if_pos h]

theorem toList_signed (negative : Bool) (t : String) :
    (signed negative t).toList = if negative then '-' :: t.toList else t.toList := by
  cases negative
  · rfl
  · exact String.toList_append

theorem toList_text {x : Float} (h : isFinite x = true) :
    (text x).toList = if isNegative x then '-' :: digits x else digits x := by
  rw [text_finite h, toList_signed, digits]

/-- The words for the numbers that are not finite. -/
theorem text_not_finite {x : Float} (h : isFinite x = false) :
    text x = if isNaN x then "NaN" else if isNegative x then "-inf" else "inf" := by
  rw [text, h]
  cases isNegative x <;> rfl

/-- The text of a decimal is read as the magnitude nearest to it. -/
theorem read?_decimal {d : Decimal} (h : d.rank < infinity) :
    read? d.text.toList = some (ofRank false d.rank) := by
  obtain ⟨e, he, hrank⟩ := d.rank_of_text
  rw [read?, he]
  dsimp only
  rw [hrank, if_pos h]

/-- The digits are read as the magnitude that they were written for. -/
theorem read?_digits {x : Float} (h : isFinite x = true) :
    read? (digits x) = some (ofRank false (rank x)) := by
  have hrank : (Decimal.shortest (rank x)).rank = rank x := Decimal.rank_shortest (rank x)
  have hfinite : (Decimal.shortest (rank x)).rank < infinity := by
    rw [hrank]
    exact of_decide_eq_true h
  rw [digits, read?_decimal hfinite, hrank]

theorem digits_ne_nil {x : Float} (h : isFinite x = true) : digits x ≠ [] := by
  intro hnil
  have hread := read?_digits h
  rw [hnil] at hread
  cases hread

/-- A number without a sign is its magnitude. -/
theorem magnitude_eq {x : Float} (h : isNegative x = false) : ofRank false (rank x) = x := by
  have hx := ofRank_rank x
  rwa [h] at hx

/-- A finite number with a sign is the negation of its magnitude. -/
theorem neg_magnitude_eq {x : Float} (hf : isFinite x = true) (h : isNegative x = true) :
    -ofRank false (rank x) = x := by
  have hx := ofRank_rank x
  rw [h] at hx
  rw [neg_ofRank false (of_decide_eq_true hf)]
  exact hx

/-- Negation gives a finite number without a sign its sign. -/
theorem neg_bounds {x : Float} (hf : isFinite x = true) (h : isNegative x = false) :
    isFinite (-x) = true ∧ isNegative (-x) = true := by
  have hlt : rank x < infinity := of_decide_eq_true hf
  rw [← magnitude_eq h, neg_ofRank false hlt, isFinite, rank_ofRank _ hlt]
  exact ⟨hf, isNegative_ofRank _ hlt⟩

end Calculator.Number
