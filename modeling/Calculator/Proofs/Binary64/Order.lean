import Calculator.Proofs.Binary64.Rounding
import Calculator.Proofs.Binary64.Signs
/- The numbers that ranks and units stand for. A code is unpacked into the sign, the
   steps and the exponent of the place of its rank (`unpack_place`), and all that the
   number format does with finite numbers is read off that: they are compared as their
   ranks under their signs (`lt_iff_withSign`), `abs` drops the sign and leaves the rank
   (`abs_ofRank`), and a conversion to a whole number cuts the units off at the number
   one (`toInt_word`). So `toRat`, which counts the units, is the value of a finite
   number: the order of the numbers is that of their values (`lt_iff_toRat`). -/
namespace Calculator.Binary64
open Float.Model Float.Model.UnpackedFloat

/-! ## Codes unpacked -/

theorem unpack_zero (negative : Bool) :
    UnpackedFloat.unpack .binary64 (word negative 0) = .zero (sign negative) := by
  rw [unpack_word]
  rfl

/-- A number that is not zero is unpacked into the steps and the exponent of its place. -/
theorem unpack_place (negative : Bool) {n e r : Nat} (hp : Place n e r) (hr : r < 2 * binade)
    (hpos : 0 < r) (h : n < infinity) :
    UnpackedFloat.unpack .binary64 (word negative n) =
      .finite (sign negative) r (e - 1074) hpos := by
  have hrank := hp.rank
  have hlow := hp.low
  have hinf : infinity = 2047 * 2 ^ 52 := rfl
  rw [hinf] at h
  rw [binade_pow] at hrank hlow hr
  have hexp : (BitVec.ofNat 11 (n / 2 ^ 52)).toNat = n / 2 ^ 52 := by
    rw [BitVec.toNat_ofNat]
    omega
  have hones : BitVec.ofNat 11 (n / 2 ^ 52) ≠ -1#11 := by
    intro heq
    have hval := congrArg BitVec.toNat heq
    have hmax : (-1#11).toNat = 2047 := rfl
    omega
  rw [unpack_word, if_neg hones]
  rcases Nat.lt_or_ge r (2 ^ 52) with hsub | hnorm
  · -- Below the second exponent the fraction is the rank.
    obtain rfl : e = 0 := by omega
    obtain rfl : n = r := by omega
    have hzero : BitVec.ofNat 11 (n / 2 ^ 52) = 0#11 := by rw [Nat.div_eq_of_lt hsub]
    have hfrac : (BitVec.ofNat 52 n).toNat = n := by
      rw [BitVec.toNat_ofNat, Nat.mod_eq_of_lt hsub]
    have hne : BitVec.ofNat 52 n ≠ 0#52 := by
      intro heq
      rw [heq] at hfrac
      exact hpos.ne hfrac
    rw [if_pos hzero, dif_neg hne]
    simp only [hfrac]
    rfl
  · have hzero : BitVec.ofNat 11 (n / 2 ^ 52) ≠ 0#11 := by
      intro heq
      have hval := congrArg BitVec.toNat heq
      have hmin : (0#11).toNat = 0 := rfl
      omega
    have hfrac : 2 ^ 52 + (BitVec.ofNat 52 n).toNat = r := by
      rw [BitVec.toNat_ofNat]
      omega
    have hval : ((BitVec.ofNat 11 (n / 2 ^ 52)).toNat : Int) - 1075 = e - 1074 := by
      rw [hexp]
      omega
    rw [if_neg hzero]
    simp only [hfrac, hval]

theorem unpack_toModel (x : Float) :
    x.toModel.unpack = UnpackedFloat.unpack .binary64 (word (isNegative x) (rank x)) := by
  rw [← toBitVec_toBits]
  rfl

theorem Place.pos {n e r : Nat} (h : Place n e r) (hn : 0 < n) : 0 < r := by
  obtain ⟨rfl, hlow, -⟩ := h
  rw [binade_eq] at *
  omega

/-! ## Order -/

/-- Exponents first and then steps stand in the order of the ranks. -/
theorem compare_place {m n e f r s : Nat} (hm : Place m e r) (hn : Place n f s)
    (hr : r < 2 * binade) (hs : s < 2 * binade) :
    (compare ((e : Int) - 1074) (f - 1074)).then (compare r s) = compare m n := by
  obtain ⟨rfl, hlow, -⟩ := hm
  obtain ⟨rfl, hlow', -⟩ := hn
  rw [binade_eq] at *
  rcases Nat.lt_trichotomy e f with h | rfl | h
  · rw [Int.compare_eq_lt.mpr (by omega), Ordering.lt_then, eq_comm, Nat.compare_eq_lt]
    omega
  · rw [Int.compare_eq_eq.mpr rfl, Ordering.eq_then]
    rcases Nat.lt_trichotomy r s with h | rfl | h
    · rw [Nat.compare_eq_lt.mpr h, eq_comm, Nat.compare_eq_lt]
      omega
    · rw [Nat.compare_eq_eq.mpr rfl, Nat.compare_eq_eq.mpr rfl]
    · rw [Nat.compare_eq_gt.mpr h, eq_comm, Nat.compare_eq_gt]
      omega
  · rw [Int.compare_eq_gt.mpr (by omega), Ordering.gt_then, eq_comm, Nat.compare_eq_gt]
    omega

/-- `n` under a sign. -/
def withSign (negative : Bool) (n : Nat) : Int := if negative then -(n : Int) else n

theorem withSign_mul (negative : Bool) (m n : Nat) :
    withSign negative (m * n) = withSign negative m * n := by
  cases negative with
  | false => exact Int.natCast_mul m n
  | true =>
    show -((m * n : Nat) : Int) = -(m : Int) * n
    rw [Int.natCast_mul, Int.neg_mul]

theorem withSign_bounds (negative : Bool) {n bound : Nat} (h : n < bound) :
    -(bound : Int) < withSign negative n ∧ withSign negative n < bound := by
  rw [withSign]
  split <;> omega

/-- Numbers that are not zero are compared by their signs first. -/
theorem lt_finite_iff (a b : Bool) {m n : Nat} {e f : Int} {r s : Nat} (hr : 0 < r) (hs : 0 < s)
    (hm : 0 < m) (hn : 0 < n) (h : (compare e f).then (compare r s) = compare m n) :
    (UnpackedFloat.finite (sign a) r e hr).lt (.finite (sign b) s f hs) = true ↔
      withSign a m < withSign b n := by
  cases a <;> cases b
  · show (some ((compare e f).then (compare r s)) == some .lt) = true ↔ (m : Int) < n
    rw [h, beq_iff_eq, Option.some_inj, Nat.compare_eq_lt]
    omega
  · show (some Ordering.gt == some .lt) = true ↔ (m : Int) < -n
    exact ⟨fun h => absurd h (by decide), fun h => by omega⟩
  · show (some Ordering.lt == some .lt) = true ↔ -(m : Int) < n
    exact ⟨fun _ => by omega, fun _ => rfl⟩
  · show (some ((compare e f).then (compare r s)).swap == some .lt) = true ↔ -(m : Int) < -n
    rw [h, Nat.compare_swap, beq_iff_eq, Option.some_inj, Nat.compare_eq_lt]
    omega

theorem lt_word_iff (a b : Bool) {m n : Nat} (hm : m < infinity) (hn : n < infinity) :
    (UnpackedFloat.unpack .binary64 (word a m)).lt (UnpackedFloat.unpack .binary64 (word b n)) =
      true ↔ withSign a m < withSign b n := by
  obtain ⟨e, r, hp, hr⟩ := exists_place m
  obtain ⟨f, s, hq, hs⟩ := exists_place n
  -- Zero is unpacked without steps, so it is compared apart from the others.
  rcases Nat.eq_zero_or_pos m with rfl | hm0 <;> rcases Nat.eq_zero_or_pos n with rfl | hn0
  · rw [unpack_zero, unpack_zero]
    cases a <;> cases b <;> decide
  · rw [unpack_zero, unpack_place b hq hs (hq.pos hn0) hn]
    cases b
    · show true = true ↔ withSign a 0 < n
      cases a <;> simp [withSign, hn0]
    · show false = true ↔ withSign a 0 < -n
      cases a <;> simp [withSign]
  · rw [unpack_zero, unpack_place a hp hr (hp.pos hm0) hm]
    cases a
    · show false = true ↔ m < withSign b 0
      cases b <;> simp [withSign]
    · show true = true ↔ -(m : Int) < withSign b 0
      cases b <;> simp [withSign, hm0]
  · rw [unpack_place a hp hr (hp.pos hm0) hm, unpack_place b hq hs (hq.pos hn0) hn]
    exact lt_finite_iff a b _ _ hm0 hn0 (compare_place hp hq hr hs)

/-- Finite numbers stand in the order of their ranks under their signs. -/
theorem lt_iff_withSign {x y : Float} (hx : isFinite x = true) (hy : isFinite y = true) :
    x < y ↔ withSign (isNegative x) (rank x) < withSign (isNegative y) (rank y) := by
  have hlt : x < y ↔ x.toModel.unpack.lt y.toModel.unpack = true := by
    show decide (x.toModel < y.toModel) = true ↔ _
    exact decide_eq_true_iff
  rw [hlt, unpack_toModel, unpack_toModel,
    lt_word_iff _ _ (of_decide_eq_true hx) (of_decide_eq_true hy)]

/-! ## Magnitudes and whole parts -/

theorem unpack_word_abs (negative : Bool) (n : Nat) :
    (UnpackedFloat.unpack .binary64 (word negative n)).abs =
      UnpackedFloat.unpack .binary64 (word false n) := by
  rw [unpack_word, unpack_word]
  split
  · split <;> rfl
  · split
    · split <;> rfl
    · rfl

theorem abs_eq {x : Float} (h : isFinite x = true) : x.abs = ofRank false (rank x) := by
  have hlt : rank x < infinity := of_decide_eq_true h
  apply Float.toBits_inj.mp
  rw [toBits_ofRank _ hlt, ← pack_unpack_word _ hlt, ← unpack_word_abs (isNegative x),
    ← unpack_toModel]
  rfl

/-- Shifting cuts off what is no whole step. -/
theorem mantissa_shiftRight (m : ExtendedMantissa) (k : Nat) :
    (m >>> k).mantissa = m.mantissa / 2 ^ k := by
  induction k with
  | zero =>
    rw [Nat.pow_zero, Nat.div_one]
    rfl
  | succ k ih =>
    have hstep : (m >>> (k + 1)).mantissa = (m >>> k).mantissa / 2 := rfl
    rw [hstep, ih, Nat.div_div_eq_div_mul, Nat.pow_succ]

/-- Steps larger than the number one are multiplied, and of smaller ones those are kept
    that make up whole numbers. -/
theorem roundToInt_eq (s : Sign) (r : Nat) (e : Int) :
    roundToInt s r e = s.apply ((r * 2 ^ e.toNat / 2 ^ (-e).toNat : Nat) : Int) := by
  have hdown : (0 - (e - (e - 0).toNat)).toNat = (-e).toNat := by omega
  have hup : (e - 0).toNat = e.toNat := by omega
  have hshift : roundToInt s r e = s.apply
      ((ExtendedMantissa.mk (r <<< (e - 0).toNat) false false >>>
        (0 - (e - (e - 0).toNat)).toNat).mantissa : Nat) := rfl
  rw [hshift, hdown, mantissa_shiftRight, hup, Nat.shiftLeft_eq]

theorem roundToInt_place (s : Sign) (r e : Nat) :
    roundToInt s r ((e : Int) - 1074) = s.apply ((r * 2 ^ e / one : Nat) : Int) := by
  obtain ⟨k, hk, hone⟩ : ∃ k, k = 1074 ∧ one = Nat.pow 2 k := ⟨_, rfl, one_eq⟩
  have hone : one = 2 ^ k := hone
  rw [roundToInt_eq, hone]
  rcases Nat.le_total e k with h | h
  · have hup : ((e : Int) - 1074).toNat = 0 := by omega
    have hdown : (-((e : Int) - 1074)).toNat = k - e := by omega
    have hpow : 2 ^ k = 2 ^ (k - e) * 2 ^ e := by rw [← Nat.pow_add, Nat.sub_add_cancel h]
    rw [hup, hdown, hpow, Nat.mul_div_mul_right _ _ (Nat.two_pow_pos e), Nat.pow_zero,
      Nat.mul_one]
  · have hup : ((e : Int) - 1074).toNat = e - k := by omega
    have hdown : (-((e : Int) - 1074)).toNat = 0 := by omega
    have hpow : r * 2 ^ e = r * 2 ^ (e - k) * 2 ^ k := by
      rw [Nat.mul_assoc, ← Nat.pow_add, Nat.sub_add_cancel h]
    rw [hup, hdown, hpow, Nat.mul_div_cancel _ (Nat.two_pow_pos k), Nat.pow_zero, Nat.div_one]

theorem units_zero : units 0 = 0 := rfl

/-- A finite number is converted to its whole part. -/
theorem toInt_word (negative : Bool) {n : Nat} (h : n < infinity) (low high : Int) :
    (UnpackedFloat.unpack .binary64 (word negative n)).toInt low high =
      withSign negative (units n / one) := by
  rcases Nat.eq_zero_or_pos n with rfl | hn
  · rw [unpack_zero, units_zero, Nat.zero_div]
    cases negative <;> rfl
  · obtain ⟨e, r, hp, hr⟩ := exists_place n
    rw [unpack_place negative hp hr (hp.pos hn) h, hp.units_eq]
    show roundToInt (sign negative) r ((e : Int) - 1074) = _
    rw [roundToInt_place]
    cases negative <;> rfl

/-- The conversion to 64 bits, which would stop at the ends of their range, leaves a whole
    part within it as it is. -/
theorem toInt64_eq {x : Float} (h : isFinite x = true)
    (hlow : -2 ^ 63 ≤ withSign (isNegative x) (units (rank x) / one))
    (hhigh : withSign (isNegative x) (units (rank x) / one) < 2 ^ 63) :
    x.toModel.toInt64.toInt = withSign (isNegative x) (units (rank x) / one) := by
  have hconv : x.toModel.toInt64 = Int64.ofIntClamp (x.toModel.unpack.toInt _ _) := rfl
  rw [hconv, unpack_toModel, toInt_word _ (of_decide_eq_true h), Int64.toInt_ofIntClamp]
  · exact hlow
  · have hmax : Int64.maxValue.toInt = 2 ^ 63 - 1 := rfl
    rw [hmax]
    omega

/-! ## Values -/

theorem one_cast_pos : (0 : ℚ) < one := Nat.cast_pos.mpr one_pos

/-- The value of a finite number. -/
def toRat (x : Float) : ℚ := withSign (isNegative x) (units (rank x)) / one

/-- A number of whole magnitude is its whole part under its sign. -/
theorem toRat_of_isWhole {x : Float} (h : isWhole (rank x) = true) :
    toRat x = withSign (isNegative x) (units (rank x) / one) := by
  rw [toRat, div_eq_iff one_cast_pos.ne', ← Int.cast_natCast one, ← Int.cast_mul, ← withSign_mul,
    whole_units h]

/-- Numbers of whole magnitude are those without a fraction. -/
theorem isWhole_iff_fract (x : Float) :
    isWhole (rank x) = true ↔ Int.fract (toRat x) = 0 := by
  constructor
  · intro h
    rw [toRat_of_isWhole h]
    exact Int.fract_intCast _
  · intro h
    obtain ⟨k, hk⟩ := Int.fract_eq_zero_iff.mp h
    rw [toRat, eq_div_iff one_cast_pos.ne'] at hk
    have hdvd : (one : ℤ) ∣ withSign (isNegative x) (units (rank x)) :=
      ⟨k, by rw [mul_comm]; exact_mod_cast hk.symm⟩
    have hunits : one ∣ units (rank x) := by
      rw [withSign] at hdvd
      split at hdvd
      · exact Int.natCast_dvd_natCast.mp (Int.dvd_neg.mp hdvd)
      · exact Int.natCast_dvd_natCast.mp hdvd
    exact decide_eq_true (Nat.mod_eq_zero_of_dvd hunits)

theorem withSign_units_lt_iff (a b : Bool) (m n : Nat) :
    withSign a (units m) < withSign b (units n) ↔ withSign a m < withSign b n := by
  have hm := units_strictMono.lt_iff_lt (a := 0) (b := m)
  have hn := units_strictMono.lt_iff_lt (a := 0) (b := n)
  rw [units_zero] at hm hn
  have hmn := units_strictMono.lt_iff_lt (a := m) (b := n)
  have hnm := units_strictMono.lt_iff_lt (a := n) (b := m)
  cases a <;> cases b <;> simp only [withSign, if_true, Bool.false_eq_true, if_false] <;> omega

/-- The order of finite numbers is that of their values. -/
theorem lt_iff_toRat {x y : Float} (hx : isFinite x = true) (hy : isFinite y = true) :
    x < y ↔ toRat x < toRat y := by
  rw [lt_iff_withSign hx hy, ← withSign_units_lt_iff, toRat, toRat,
    div_lt_div_iff_of_pos_right one_cast_pos, Int.cast_lt]

end Calculator.Binary64
