import Calculator.Proofs.Decimal.RoundTrip
import Mathlib.Data.Rat.Cast.Order
import Mathlib.Tactic.Positivity
/- The rational number that a decimal denotes. It can be read off the text
   (`toRat_of_text`), and rounding keeps its order (`rank_mono`). Where it becomes too
   large for a magnitude is `2^1024 - 2^970`, the middle between the largest finite
   number and the power of two that follows it (`rank_lt_infinity_iff`). -/
namespace Calculator.Decimal
open Binary64

/-- The number that `d` denotes. -/
def toRat (d : Decimal) : ℚ := d.digits / 10 ^ d.places

/-- The text of a decimal denotes what the decimal denotes. -/
theorem toRat_of_text (d : Decimal) : ∃ e, ofRun? d.text.toList = some e ∧ e.toRat = d.toRat := by
  obtain ⟨e, he, heq⟩ := d.eq_of_text
  have hpos (k : ℕ) : (10 : ℚ) ^ k ≠ 0 := by positivity
  refine ⟨e, he, ?_⟩
  rw [toRat, toRat, div_eq_div_iff (hpos _) (hpos _)]
  exact_mod_cast heq

/-- A larger decimal has no smaller nearest magnitude. -/
theorem rank_mono {d e : Decimal} (h : d.toRat ≤ e.toRat) : d.rank ≤ e.rank := by
  have hten (k : ℕ) : 0 < Nat.pow 10 k := Nat.pow_pos (by decide)
  have hpos (k : ℕ) : (0 : ℚ) < 10 ^ k := by positivity
  rw [toRat, toRat, div_le_div_iff₀ (hpos _) (hpos _)] at h
  have hcross : d.digits * 10 ^ e.places ≤ e.digits * 10 ^ d.places := by exact_mod_cast h
  apply nearest_mono (hten _) (hten _)
  calc d.digits * one * 10 ^ e.places = d.digits * 10 ^ e.places * one := by ring
    _ ≤ e.digits * 10 ^ d.places * one := Nat.mul_le_mul_right one hcross
    _ = e.digits * one * 10 ^ d.places := by ring

/-- The middle below a power of two, counted in units and as a number. -/
theorem lt_middle_iff {n p e j k l unit : ℕ} (hk : k = e + j) (hl : l = e + 54)
    (hunit : unit = Nat.pow 2 j) :
    n * unit < (2 ^ 54 - 1) * 2 ^ k * 10 ^ p ↔ (n : ℚ) / 10 ^ p < 2 ^ l - 2 ^ e := by
  have hunit : unit = 2 ^ j := hunit
  have hpos : 0 < unit := by
    rw [hunit]
    exact Nat.two_pow_pos j
  have hten : (0 : ℚ) < 10 ^ p := by positivity
  have hmiddle : (2 : ℚ) ^ l - 2 ^ e = ((2 ^ 54 - 1) * 2 ^ e : ℕ) := by
    rw [hl, pow_add]
    push_cast
    ring
  have hunits : (2 ^ 54 - 1) * 2 ^ k * 10 ^ p = (2 ^ 54 - 1) * 2 ^ e * 10 ^ p * unit := by
    rw [hk, pow_add, hunit]
    ring
  rw [hunits, Nat.mul_lt_mul_right hpos, hmiddle, div_lt_iff₀ hten]
  norm_cast

/-- A decimal is rounded to a finite magnitude below `2^1024 - 2^970`. -/
theorem rank_lt_infinity_iff (d : Decimal) :
    d.rank < infinity ↔ d.toRat < 2 ^ 1024 - 2 ^ 970 := by
  have hten : 0 < Nat.pow 10 d.places := Nat.pow_pos (by decide)
  rw [rank, nearest_lt_infinity_iff hten, toRat]
  exact lt_middle_iff rfl rfl one_eq

end Calculator.Decimal
