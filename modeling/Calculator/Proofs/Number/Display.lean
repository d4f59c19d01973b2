import Calculator.Proofs.Binary64.Order
import Calculator.Proofs.Decimal.Whole
import Calculator.Proofs.Number.RoundTrip
/- The decimal that the result line shows of a finite number. It is printed in two
   ways, with all its digits (`isExact`) or as the shortest decimal that reads back, but
   in both it is the text of a decimal that has the magnitude for its nearest one, under
   a sign if the number is negative and not zero (`resultText_eq`, `rank_decimal`). So
   the order of numbers is that of what is shown (`denoted_lt`), and there is a point
   exactly if the number is not whole (`point_mem_resultText_iff`). The numbers printed
   with all their digits are the whole ones that are below the largest whole number of
   64 bits in the order of the number format, where that bound is rounded up to `2^63`
   (`isExact_iff_abs_lt`); so the conversion to 64 bits never stops at its range
   (`exact_integer`). -/
namespace Calculator.Number
open Binary64

/-! ## What is printed -/

/-- Zero has the rank 0 under both signs. -/
theorem eq_of_isZero {x : Float} (h : isZero x = true) : x = 0 ∨ x = -0 := by
  have hrank : rank x = 0 := of_decide_eq_true h
  rw [← ofRank_rank x, hrank]
  cases isNegative x with
  | false => exact .inl (by decide +kernel)
  | true => exact .inr (by decide +kernel)

theorem resultText_of_isZero {x : Float} (h : isZero x = true) :
    isExact x = true ∧ resultText x = resultText 0 := by
  rcases eq_of_isZero h with rfl | rfl <;> decide +kernel

/-- The decimal that the result line shows of a finite number, without its sign. -/
def decimal (x : Float) : Decimal :=
  if isExact x then ⟨units (rank x) / one, 0⟩ else Decimal.shortest (rank x)

theorem isExact_iff {x : Float} : isExact x = true ↔
    isFinite x = true ∧ isWhole (rank x) = true ∧ units (rank x) < Nat.pow 2 63 * one := by
  rw [isExact, Bool.and_eq_true, Bool.and_eq_true, decide_eq_true_iff, and_assoc]

theorem rank_decimal (x : Float) : (decimal x).rank = rank x := by
  unfold decimal
  split
  · next he => exact Decimal.rank_whole (isExact_iff.mp he).2.1
  · exact Decimal.rank_shortest _

/-- Only zero is shown without its sign. -/
def showsSign (x : Float) : Bool := isNegative x && !isZero x

theorem resultText_eq {x : Float} (h : isFinite x = true) :
    resultText x = signed (showsSign x) (decimal x).text := by
  unfold resultText decimal
  cases he : isExact x with
  | true =>
    rw [if_pos rfl, if_pos rfl, Decimal.text_whole]
    rfl
  | false =>
    have hzero : isZero x = false := by
      apply Bool.eq_false_iff.mpr
      intro hz
      rw [(resultText_of_isZero hz).1] at he
      cases he
    rw [if_neg Bool.false_ne_true, if_neg Bool.false_ne_true, text_finite h, showsSign, hzero,
      Bool.not_false, Bool.and_true]

/-! ## Points -/

theorem fraction_decimal_iff (x : Float) :
    (decimal x).fraction = [] ↔ isWhole (rank x) = true := by
  constructor
  · intro h
    rw [← rank_decimal x]
    exact Decimal.isWhole_rank h
  · intro h
    have hplaces : (decimal x).places = 0 := by
      unfold decimal
      split
      · rfl
      · next he =>
        apply Decimal.places_shortest h
        apply Nat.pos_of_ne_zero
        intro hrank
        exact he (resultText_of_isZero (decide_eq_true hrank)).1
    rw [Decimal.fraction, hplaces]
    rfl

/-- There is a point exactly if there is something to show behind it. -/
theorem point_mem_resultText_iff {x : Float} (h : isFinite x = true) :
    '.' ∈ (resultText x).toList ↔ Int.fract (toRat x) ≠ 0 := by
  have hsign : '.' ∈ (signed (showsSign x) (decimal x).text).toList ↔
      '.' ∈ (decimal x).text.toList := by
    rw [toList_signed]
    split
    · rw [List.mem_cons, or_iff_right (by decide)]
    · rfl
  rw [resultText_eq h, hsign, Decimal.point_mem_text_iff, Ne, fraction_decimal_iff,
    isWhole_iff_fract]

theorem resultText_characters {x : Float} (h : isFinite x = true) :
    ∀ c ∈ (resultText x).toList, c.isDigit = true ∨ c = '.' ∨ c = '-' := by
  have hrun : ∀ c ∈ (decimal x).text.toList, c.isDigit = true ∨ c = '.' := by
    intro c hc
    have hrun := (decimal x).text_run c hc
    rw [Lexeme.isRunChar, Bool.or_eq_true] at hrun
    exact hrun.imp_right fun he => by simpa using he
  intro c hc
  rw [resultText_eq h, toList_signed] at hc
  split at hc
  · rcases List.mem_cons.mp hc with rfl | hc
    · exact .inr (.inr rfl)
    · exact (hrun c hc).imp_right .inl
  · exact (hrun c hc).imp_right .inl

theorem resultText_not_pointZero {x : Float} (h : isFinite x = true) :
    ¬ ['.', '0'] <:+ (resultText x).toList := by
  have htext := (decimal x).not_pointZero_suffix
  rw [resultText_eq h, toList_signed]
  split
  · intro hsuffix
    rcases List.suffix_cons_iff.mp hsuffix with heq | hsuffix
    · cases heq
    · exact htext hsuffix
  · exact htext

/-! ## Order -/

/-- The number that a text with or without a minus sign denotes. -/
def denoted (s : String) : Option ℚ :=
  if s.toList.head? = some '-' then
    (Decimal.ofRun? s.toList.tail).map fun d => -d.toRat
  else (Decimal.ofRun? s.toList).map Decimal.toRat

theorem denoted_signed (negative : Bool) (d : Decimal) :
    denoted (signed negative d.text) = some (if negative then -d.toRat else d.toRat) := by
  obtain ⟨e, he, hvalue⟩ := d.toRat_of_text
  rw [denoted, toList_signed]
  cases negative with
  | true => simp [he, hvalue]
  | false =>
    have hhead : d.text.toList.head? ≠ some '-' := by
      intro hhead
      have hrun := d.text_run '-' (List.mem_of_head? hhead)
      revert hrun
      decide
    simp [hhead, he, hvalue]

/-- What the result line shows of a finite number. -/
theorem denoted_resultText {x : Float} (h : isFinite x = true) :
    denoted (resultText x) =
      some (if showsSign x then -(decimal x).toRat else (decimal x).toRat) := by
  rw [resultText_eq h, denoted_signed]

theorem toRat_decimal_lt {x y : Float} (h : rank x < rank y) :
    (decimal x).toRat < (decimal y).toRat := by
  by_contra hle
  have hrank := Decimal.rank_mono (not_lt.mp hle)
  rw [rank_decimal, rank_decimal] at hrank
  omega

theorem toRat_decimal_nonneg (x : Float) : 0 ≤ (decimal x).toRat := by
  rw [Decimal.toRat]
  positivity

theorem toRat_decimal_pos {x : Float} (h : 0 < rank x) : 0 < (decimal x).toRat := by
  have hzero : rank 0 = 0 := by decide +kernel
  exact lt_of_le_of_lt (toRat_decimal_nonneg 0) (toRat_decimal_lt (hzero ▸ h))

/-- The sign that is not shown is one of zero, where it makes no difference. -/
theorem withSign_showsSign {x : Float} {n : Nat} (h : rank x = 0 → n = 0) :
    withSign (showsSign x) n = withSign (isNegative x) n := by
  rw [showsSign, isZero]
  cases isNegative x with
  | false => rfl
  | true =>
    by_cases hrank : rank x = 0
    · rw [h hrank, hrank]
      rfl
    · rw [decide_eq_false hrank]
      rfl

theorem pos_of_showsSign {x : Float} (h : showsSign x = true) : 0 < rank x := by
  rw [showsSign, Bool.and_eq_true, Bool.not_eq_true'] at h
  exact Nat.pos_of_ne_zero (of_decide_eq_false h.2)

/-- Numbers are shown in their order, however each of them is printed. -/
theorem denoted_lt {x y : Float} (hx : isFinite x = true) (hy : isFinite y = true)
    (h : x < y) : ∃ p q, denoted (resultText x) = some p ∧ denoted (resultText y) = some q ∧
      p < q := by
  refine ⟨_, _, denoted_resultText hx, denoted_resultText hy, ?_⟩
  have hxy := (lt_iff_withSign hx hy).mp h
  rw [← withSign_showsSign id, ← withSign_showsSign id] at hxy
  -- Under one sign the ranks decide, under two the signs that are shown.
  cases hsx : showsSign x <;> cases hsy : showsSign y <;> rw [hsx, hsy] at hxy
  · have hrank : (rank x : Int) < rank y := hxy
    exact toRat_decimal_lt (by omega)
  · have hrank : (rank x : Int) < -rank y := hxy
    omega
  · calc -(decimal x).toRat < 0 := neg_neg_of_pos (toRat_decimal_pos (pos_of_showsSign hsx))
      _ ≤ (decimal y).toRat := toRat_decimal_nonneg y
  · have hrank : -(rank x : Int) < -rank y := hxy
    exact neg_lt_neg (toRat_decimal_lt (by omega))

/-! ## Whole numbers of 64 bits -/

/-- The bound below which numbers are printed with all their digits is rounded up. -/
theorem bound_eq : (9223372036854775807.0 : Float) = ofRank false (1086 * binade) := by
  decide +kernel

theorem units_bound : units (1086 * binade) = Nat.pow 2 63 * one := by
  obtain ⟨k, hk, hone⟩ : ∃ k, k = 1074 ∧ one = Nat.pow 2 k := ⟨_, rfl, one_eq⟩
  have hone : one = 2 ^ k := hone
  have hp : Place (1086 * binade) (k + 11) binade :=
    ⟨by rw [hk]; rfl, .inr (Nat.le_refl _), by omega⟩
  have hbound : Nat.pow 2 63 = 2 ^ 52 * 2 ^ 11 := rfl
  rw [hp.units_eq, hone, hbound, binade_pow, Nat.pow_add, Nat.mul_assoc, Nat.mul_comm (2 ^ k)]

theorem abs_lt_bound_iff {x : Float} (h : isFinite x = true) :
    x.abs < 9223372036854775807.0 ↔ units (rank x) < Nat.pow 2 63 * one := by
  have hx : rank x < infinity := of_decide_eq_true h
  have hbound : 1086 * binade < infinity := by decide
  have hfinite {n : Nat} (hn : n < infinity) : isFinite (ofRank false n) = true := by
    rw [isFinite, rank_ofRank false hn]
    exact decide_eq_true hn
  rw [abs_eq h, bound_eq, lt_iff_withSign (hfinite hx) (hfinite hbound), rank_ofRank false hx,
    rank_ofRank false hbound, isNegative_ofRank false hx, isNegative_ofRank false hbound,
    ← units_bound, units_strictMono.lt_iff_lt]
  exact Int.ofNat_lt

/-- The numbers printed with all their digits are the whole ones below the bound, as the
    number format compares them. -/
theorem isExact_iff_abs_lt (x : Float) : isExact x = true ↔
    isFinite x = true ∧ Int.fract (toRat x) = 0 ∧ x.abs < 9223372036854775807.0 := by
  rw [isExact_iff, isWhole_iff_fract]
  exact and_congr_right fun h => and_congr_right fun _ => (abs_lt_bound_iff h).symm

/-- A whole number as it is written: its digits, none of them a needless zero at the
    front, and a minus sign exactly if it is negative. -/
structure Canonical (s : String) (k : ℤ) : Prop where
  repr : s = k.repr
  digits : ∀ c ∈ s.toList, c.isDigit = true ∨ c = '-'
  minus : '-' ∈ s.toList ↔ k < 0
  zero : k = 0 → s = "0"
  front : ∀ c rest, s.toList ≠ '0' :: c :: rest ∧ s.toList ≠ '-' :: '0' :: rest

theorem canonical_nat (n : Nat) : Canonical n.repr n := by
  have hdigit : ∀ c ∈ n.repr.toList, c.isDigit = true := by
    intro c hc
    rw [Nat.toList_repr] at hc
    exact Nat.isDigit_of_mem_toDigits (by decide) (by decide) hc
  have hminus : '-' ∉ n.repr.toList := fun hmem => absurd (hdigit _ hmem) (by decide)
  refine ⟨rfl, fun c hc => .inl (hdigit c hc), ⟨fun hmem => absurd hmem hminus, fun h => by omega⟩,
    fun h => ?_, fun c rest => ⟨fun h => ?_, fun h => ?_⟩⟩
  · obtain rfl : n = 0 := by omega
    rfl
  · rcases Nat.eq_zero_or_pos n with rfl | hn
    · cases h
    · rw [Nat.toList_repr] at h
      exact Decimal.head?_toDigits hn (congrArg List.head? h)
  · rw [h] at hminus
    exact hminus List.mem_cons_self

theorem canonical_neg {n : Nat} (hn : 0 < n) : Canonical ("-" ++ n.repr) (-n) := by
  have hlist : ("-" ++ n.repr).toList = '-' :: n.repr.toList := String.toList_append
  refine ⟨?_, ?_, ?_, fun h => by omega, fun c rest => ?_⟩
  · rw [Int.repr_eq_if, if_neg (by omega), Int.neg_neg, Int.toNat_natCast]
  · intro c hc
    rw [hlist] at hc
    rcases List.mem_cons.mp hc with rfl | hc
    · exact .inr rfl
    · exact (canonical_nat n).digits c hc
  · rw [hlist]
    exact ⟨fun _ => by omega, fun _ => List.mem_cons_self⟩
  · rw [hlist]
    refine ⟨fun h => (by cases h), fun h => ?_⟩
    have hzero := (List.cons_eq_cons.mp h).2
    rw [Nat.toList_repr] at hzero
    exact Decimal.head?_toDigits hn (congrArg List.head? hzero)

theorem lt_zero_iff {x : Float} (h : isFinite x = true) : x < 0 ↔ toRat x < 0 := by
  have hzero : isFinite 0 = true ∧ isNegative 0 = false ∧ rank 0 = 0 := by decide +kernel
  have hvalue : toRat 0 = 0 := by
    rw [toRat, hzero.2.1, hzero.2.2, units_zero]
    exact zero_div _
  rw [lt_iff_toRat h hzero.1, hvalue]

/-- The text of a number printed with all its digits is the one of its whole part. -/
theorem canonical_resultText {x : Float} (h : isExact x = true) :
    Canonical (resultText x) (withSign (isNegative x) (units (rank x) / one)) := by
  obtain ⟨hfinite, hwhole, -⟩ := isExact_iff.mp h
  have hdecimal : (decimal x).text = (units (rank x) / one).repr := by
    rw [decimal, if_pos h, Decimal.text_whole]
  have hzero : rank x = 0 → units (rank x) / one = 0 := by
    intro hrank
    rw [hrank, units_zero, Nat.zero_div]
  rw [resultText_eq hfinite, hdecimal, ← withSign_showsSign hzero]
  cases hs : showsSign x with
  | false => exact canonical_nat _
  | true =>
    have hunits : 0 < units (rank x) := units_strictMono (pos_of_showsSign hs)
    rw [← whole_units hwhole] at hunits
    exact canonical_neg (Nat.pos_of_mul_pos_right hunits)

/-- A number printed with all its digits is a whole number that 64 bits hold, so the
    conversion leaves it as it is, and its text is the one of that number. -/
theorem exact_integer {x : Float} (h : isExact x = true) :
    ∃ k : ℤ, toRat x = k ∧ (x < 0 ↔ k < 0) ∧ -2 ^ 63 < k ∧ k < 2 ^ 63 ∧
      x.toModel.toInt64.toInt = k ∧ Canonical (resultText x) k := by
  obtain ⟨hfinite, hwhole, hbound⟩ := isExact_iff.mp h
  have hlt : units (rank x) / one < Nat.pow 2 63 :=
    (Nat.div_lt_iff_lt_mul Binary64.one_pos).mpr hbound
  have hrange : -2 ^ 63 < withSign (isNegative x) (units (rank x) / one) ∧
      withSign (isNegative x) (units (rank x) / one) < 2 ^ 63 :=
    withSign_bounds _ hlt
  have hvalue := toRat_of_isWhole hwhole
  refine ⟨_, hvalue, ?_, hrange.1, hrange.2, toInt64_eq hfinite hrange.1.le hrange.2,
    canonical_resultText h⟩
  rw [lt_zero_iff hfinite, hvalue, Int.cast_lt_zero]

/-- Whole numbers whose magnitude the number format puts below the largest one of 64
    bits are printed by way of a conversion to 64 bits, and no others. The conversion is
    exact and the text is the one of that whole number. In all texts of finite numbers
    there is a point exactly if the number is not whole, there is no exponent and no
    `.0` at the end, and the order of the numbers is that of what the texts denote. -/
theorem resultText_decimal :
    (∀ x, isExact x = true ↔
      isFinite x = true ∧ Int.fract (toRat x) = 0 ∧ x.abs < 9223372036854775807.0) ∧
    (∀ x, isExact x = true → ∃ k : ℤ, toRat x = k ∧ (x < 0 ↔ k < 0) ∧ -2 ^ 63 < k ∧ k < 2 ^ 63 ∧
      x.toModel.toInt64.toInt = k ∧ Canonical (resultText x) k) ∧
    (∀ x, isFinite x = true →
      ('.' ∈ (resultText x).toList ↔ Int.fract (toRat x) ≠ 0) ∧
      (∀ c ∈ (resultText x).toList, c.isDigit = true ∨ c = '.' ∨ c = '-') ∧
      ¬ ['.', '0'] <:+ (resultText x).toList) ∧
    ∀ x y, isFinite x = true → isFinite y = true → x < y →
      ∃ p q, denoted (resultText x) = some p ∧ denoted (resultText y) = some q ∧ p < q :=
  ⟨isExact_iff_abs_lt, fun _ => exact_integer, fun _ h => ⟨point_mem_resultText_iff h,
    resultText_characters h, resultText_not_pointZero h⟩, fun _ _ => denoted_lt⟩

/-- The last number on one side of the bound and the first on the other. -/
theorem resultText_decimal_bound :
    isExact 9223372036854774784 = true ∧ isExact 9223372036854775808 = false ∧
    (∃ k : ℤ, toRat 9223372036854774784 = k ∧ Canonical (resultText 9223372036854774784) k) ∧
    isFinite 9223372036854774784 = true ∧ isFinite 9223372036854775808 = true ∧
    ¬ ['.', '0'] <:+ (resultText 9223372036854775808).toList ∧
    (9223372036854774784 : Float) < 9223372036854775808 ∧
    ∃ p q, denoted (resultText 9223372036854774784) = some p ∧
      denoted (resultText 9223372036854775808) = some q ∧ p < q := by
  have hexact : isExact 9223372036854774784 = true ∧ isExact 9223372036854775808 = false := by
    decide +kernel
  have hfinite : isFinite 9223372036854774784 = true ∧ isFinite 9223372036854775808 = true := by
    decide +kernel
  have hlt : (9223372036854774784 : Float) < 9223372036854775808 := by decide +kernel
  obtain ⟨-, hinteger, htext, horder⟩ := resultText_decimal
  obtain ⟨k, hk, -, -, -, -, hcanonical⟩ := hinteger _ hexact.1
  exact ⟨hexact.1, hexact.2, ⟨k, hk, hcanonical⟩, hfinite.1, hfinite.2,
    (htext _ hfinite.2).2.2, hlt, horder _ _ hfinite.1 hfinite.2 hlt⟩

end Calculator.Number
