import Calculator.Proofs.Binary64.Rounding
import Calculator.Proofs.Expr.Numeral
import Calculator.Proofs.Number.Characters
import Mathlib.Data.List.TakeWhile
/- Decimals written and read again. The text of a decimal leaves out the zeros at
   the end of its fraction, so what is read is an equal decimal, not always the
   same one (`ofRun?_text`), but equal decimals have the same nearest magnitude
   (`rank_congr`, `rank_of_text`). The shortest decimal of a magnitude has it for its
   nearest one (`rank_shortest`), so its text is read as that magnitude. -/
namespace Calculator.Decimal
open Binary64

/-! ## Digits behind the point -/

theorem length_lowDigits (k n : Nat) : (lowDigits k n).length = k := by
  induction k generalizing n with
  | zero => rfl
  | succ k ih => rw [lowDigits, List.length_cons, ih]

theorem ofDigitChars_lowDigits (k n : Nat) :
    Nat.ofDigitChars 10 (lowDigits k n).reverse 0 = n % 10 ^ k := by
  induction k generalizing n with
  | zero => rw [Nat.pow_zero, Nat.mod_one]; rfl
  | succ k ih =>
    rw [lowDigits, List.reverse_cons, Nat.ofDigitChars_append, ih,
      Nat.ofDigitChars_cons_digitChar_of_lt_ten (Nat.mod_lt n (by decide)), Nat.ofDigitChars_nil,
      Nat.pow_succ, Nat.mul_comm (10 ^ k) 10, Nat.mod_mul]
    omega

/-- What is dropped from the front of a list stands at the end of its reverse. -/
theorem reverse_eq_dropWhile_append {α : Type} (p : α → Bool) (l : List α) :
    l.reverse = (l.dropWhile p).reverse ++ (l.takeWhile p).reverse := by
  rw [← List.reverse_append, List.takeWhile_append_dropWhile]

/-- The zeros that the fraction leaves out stand behind it. -/
theorem fraction_eq (d : Decimal) :
    ∃ zeros, d.fraction.length + zeros = d.places ∧
      Nat.ofDigitChars 10 d.fraction 0 * 10 ^ zeros = d.digits % 10 ^ d.places := by
  let low := lowDigits d.places d.digits
  let left := low.takeWhile (· = '0')
  have hzeros : left.reverse = List.replicate left.length '0' := by
    rw [List.eq_replicate_iff, List.length_reverse]
    refine ⟨rfl, fun c hc => ?_⟩
    have hc := List.mem_takeWhile_imp (List.mem_reverse.mp hc)
    exact of_decide_eq_true hc
  have hsplit : low.reverse = d.fraction ++ List.replicate left.length '0' := by
    rw [← hzeros]
    exact reverse_eq_dropWhile_append _ low
  refine ⟨left.length, ?_, ?_⟩
  · have hlength := congrArg List.length hsplit
    rw [List.length_reverse, length_lowDigits, List.length_append, List.length_replicate] at hlength
    exact hlength.symm
  · rw [← ofDigitChars_lowDigits, hsplit, Nat.ofDigitChars_append,
      Nat.ofDigitChars_replicate_zero, Nat.mul_comm]

/-! ## Reading what is written -/

/-- The digits before the point. -/
def whole (d : Decimal) : List Char := Nat.toDigits 10 (d.digits / 10 ^ d.places)

theorem whole_digits (d : Decimal) : ∀ c ∈ d.whole, c.isDigit = true := fun _ hc =>
  Nat.isDigit_of_mem_toDigits (by decide) (by decide) hc

theorem toList_text (d : Decimal) :
    d.text.toList = if d.fraction = [] then d.whole else d.whole ++ '.' :: d.fraction := by
  have hwhole : (d.digits / Nat.pow 10 d.places).repr.toList = d.whole := Nat.toList_repr ..
  unfold text
  cases hf : d.fraction with
  | nil => exact hwhole
  | cons c cs =>
    dsimp only
    simp only [String.toList_append, String.toList_ofList, hwhole,
      if_neg (List.cons_ne_nil c cs), List.append_assoc]
    rfl

/-- The text of a decimal is read digit for digit, without the zeros that it
    leaves out. -/
theorem ofRun?_text (d : Decimal) :
    ofRun? d.text.toList =
      some ⟨Nat.ofDigitChars 10 (d.whole ++ d.fraction) 0, d.fraction.length⟩ := by
  have hne : d.whole ≠ [] := Nat.toDigits_ne_nil
  have hpoint : Char.isDigit '.' = false := by decide
  rw [toList_text]
  split
  · next hf =>
    rw [Expr.ofRun?_digits d.whole_digits, if_neg hne, hf, List.append_nil, Expr.denoted]
    have hdrop : d.whole.dropWhile Char.isDigit = [] :=
      List.dropWhile_eq_nil_iff.mpr d.whole_digits
    rw [hdrop, List.filter_eq_self.mpr d.whole_digits]
    rfl
  · have hall : d.fraction.all Char.isDigit = true := List.all_eq_true.mpr d.fraction_digits
    have hsome : d.whole ++ d.fraction ≠ [] := fun h => hne (List.append_eq_nil_iff.mp h).1
    rw [Expr.ofRun?_point d.whole_digits, if_pos ⟨hall, hsome⟩, Expr.denoted,
      List.filter_append, List.filter_eq_self.mpr d.whole_digits, List.filter_cons, hpoint,
      List.dropWhile_append_of_pos d.whole_digits, List.dropWhile_cons, hpoint]
    simp [List.filter_eq_self.mpr d.fraction_digits,
      List.countP_eq_length.mpr d.fraction_digits, hpoint]

/-- Equal decimals have the same nearest magnitude. -/
theorem rank_congr {d e : Decimal} (h : d.digits * 10 ^ e.places = e.digits * 10 ^ d.places) :
    d.rank = e.rank := by
  have hpos (k : Nat) : 0 < Nat.pow 10 k := Nat.pow_pos (by decide)
  apply nearest_congr (hpos _) (hpos _)
  calc d.digits * one * 10 ^ e.places = d.digits * 10 ^ e.places * one := by ring
    _ = e.digits * 10 ^ d.places * one := by rw [h]
    _ = e.digits * one * 10 ^ d.places := by ring

/-- The text of a decimal is read as a decimal that is equal to it. -/
theorem eq_of_text (d : Decimal) :
    ∃ e, ofRun? d.text.toList = some e ∧ e.digits * 10 ^ d.places = d.digits * 10 ^ e.places := by
  refine ⟨_, d.ofRun?_text, ?_⟩
  obtain ⟨zeros, hplaces, hfraction⟩ := d.fraction_eq
  have hwhole : Nat.ofDigitChars 10 d.whole 0 = d.digits / 10 ^ d.places :=
    Nat.ofDigitChars_ten_toDigits
  have hdigits : 10 ^ d.places * (d.digits / 10 ^ d.places) + d.digits % 10 ^ d.places =
      d.digits := Nat.div_add_mod ..
  have hpow : 10 ^ d.places = 10 ^ d.fraction.length * 10 ^ zeros := by
    rw [← Nat.pow_add, hplaces]
  dsimp only
  rw [Nat.ofDigitChars_append, hwhole, Nat.ofDigitChars_eq_ofDigitChars_zero]
  calc (10 ^ d.fraction.length * (d.digits / 10 ^ d.places) +
        Nat.ofDigitChars 10 d.fraction 0) * 10 ^ d.places
      = (10 ^ d.places * (d.digits / 10 ^ d.places) +
          Nat.ofDigitChars 10 d.fraction 0 * 10 ^ zeros) * 10 ^ d.fraction.length := by
        rw [hpow]; ring
    _ = d.digits * 10 ^ d.fraction.length := by rw [hfraction, hdigits]

/-- The text of a decimal is read as a decimal with the same nearest magnitude. -/
theorem rank_of_text (d : Decimal) : ∃ e, ofRun? d.text.toList = some e ∧ e.rank = d.rank := by
  obtain ⟨e, he, heq⟩ := d.eq_of_text
  exact ⟨e, he, rank_congr heq⟩

/-! ## The shortest decimal -/

theorem onGrid_zero (n : Nat) :
    onGrid 0 (parts n) = ⟨units n * Nat.pow 5 1074 * 1, 1074⟩ := rfl

/-- A unit has as many places as the number one has halvings, so every magnitude
    has a decimal of its own. -/
theorem rank_exact (n : Nat) {k : Nat} (h : one = Nat.pow 2 k) :
    rank ⟨units n * Nat.pow 5 k * 1, k⟩ = n := by
  have hten : Nat.pow 10 k = Nat.pow 5 k * one := by
    rw [h]
    exact Nat.mul_pow 5 2 k
  rw [rank, Nat.mul_one, Nat.mul_assoc, ← hten]
  exact nearest_units n (Nat.pow_pos (by decide))

theorem rank_onGrid_zero (n : Nat) : (onGrid 0 (parts n)).rank = n := by
  have h := rank_exact n one_eq
  rwa [← onGrid_zero] at h

theorem rank_neighbour? {n j : Nat} {d : Decimal} (h : neighbour? n j = some d) : d.rank = n := by
  unfold neighbour? at h
  dsimp only at h
  split at h
  · next hbelow =>
    split at h
    · next habove => exact Option.some.inj h ▸ habove.1
    · exact Option.some.inj h ▸ hbelow
  · split at h
    · next habove => exact Option.some.inj h ▸ habove
    · exact absurd h (by simp)

/-- Whatever grid it is found on, the decimal reads back. -/
theorem rank_coarsest (n j : Nat) : (coarsest n j).rank = n := by
  induction j with
  | zero =>
    rw [coarsest]
    exact rank_onGrid_zero n
  | succ j ih =>
    rw [coarsest]
    cases hd : neighbour? n (j + 1) with
    | none => exact ih
    | some d => exact rank_neighbour? hd

theorem rank_shortest (n : Nat) : (shortest n).rank = n := rank_coarsest n _

end Calculator.Decimal
