import Calculator.Binary64
import Mathlib.Order.Monotone.Basic
import Mathlib.Tactic.Ring
/- Rounding. The magnitudes stand in the order of their ranks (`units_strictMono`),
   and `nearest` finds the one a fraction is nearest to: it stops at rank `n`
   exactly if the fraction lies below the middle between this magnitude and the
   next, or in the middle when `n` is even (`nearest_le_iff`). All that is said of
   rounding follows from that: a magnitude is its own nearest one
   (`nearest_units`), larger fractions are not rounded to smaller magnitudes
   (`nearest_mono`), whole numbers are rounded to whole numbers (`isWhole_nearest`),
   and the fractions that stay finite are those below `2^1024 - 2^970`
   (`nearest_lt_infinity_iff`). -/
namespace Calculator.Binary64

/-! ## Magnitudes in order -/

theorem binade_eq : binade = 4503599627370496 := rfl

theorem binade_pow : binade = 2 ^ 52 := rfl

theorem one_eq : one = Nat.pow 2 1074 := by
  delta one
  rfl

theorem one_pos : 0 < one := by
  obtain ⟨k, hk⟩ : ∃ k, one = Nat.pow 2 k := ⟨_, one_eq⟩
  rw [hk]
  exact Nat.two_pow_pos k

/-- The magnitude of rank `n` is `r` steps of `2^e` units. Where an exponent ends
    and the next begins, both give the same magnitude. -/
structure Place (n e r : Nat) : Prop where
  rank : n = e * binade + r
  low : e = 0 ∨ binade ≤ r
  high : r ≤ 2 * binade

theorem units_of_lt {n : Nat} (h : n / binade = 0) : units n = n := by
  unfold units
  rw [h]

theorem units_of_exponent {n e : Nat} (h : n / binade = e + 1) :
    units n = (binade + n % binade) * 2 ^ e := by
  unfold units
  rw [h]
  rfl

theorem Place.units_eq {n e r : Nat} (h : Place n e r) : units n = r * 2 ^ e := by
  obtain ⟨rfl, hlow, hhigh⟩ := h
  rw [binade_eq] at hlow hhigh
  rcases Nat.lt_or_ge r binade with hr | hr
  · -- Below the second exponent the units are counted one by one.
    rw [binade_eq] at hr
    obtain rfl : e = 0 := by omega
    rw [units_of_lt (by rw [binade_eq]; omega)]
    simp
  · rw [binade_eq] at hr
    rcases Nat.lt_or_eq_of_le hhigh with hlt | rfl
    · rw [units_of_exponent (e := e) (by rw [binade_eq]; omega)]
      congr 1
      rw [binade_eq]
      omega
    · rw [units_of_exponent (e := e + 1) (by rw [binade_eq]; omega), Nat.pow_succ]
      have hmod : (e * binade + 2 * 4503599627370496) % binade = 0 := by
        rw [binade_eq]
        omega
      rw [hmod, binade_eq]
      ring

theorem exists_place (n : Nat) : ∃ e r, Place n e r ∧ r < 2 * binade := by
  rcases Nat.lt_or_ge n binade with h | h
  · exact ⟨0, n, ⟨by omega, .inl rfl, by omega⟩, by omega⟩
  · refine ⟨n / binade - 1, n % binade + binade, ⟨?_, .inr (by omega), ?_⟩, ?_⟩ <;>
      rw [binade_eq] at * <;> omega

theorem Place.next {n e r : Nat} (h : Place n e r) (hr : r < 2 * binade) :
    Place (n + 1) e (r + 1) where
  rank := by rw [h.rank, Nat.add_assoc]
  low := h.low.imp_right fun hl => by omega
  high := hr

/-- A higher rank is a larger magnitude. -/
theorem units_strictMono : StrictMono units := by
  apply strictMono_nat_of_lt_succ
  intro n
  obtain ⟨e, r, h, hr⟩ := exists_place n
  rw [h.units_eq, (h.next hr).units_eq]
  exact Nat.mul_lt_mul_of_pos_right (Nat.lt_succ_self r) (Nat.two_pow_pos e)

/-- Whole magnitudes are whole multiples of the number one. -/
theorem whole_units {n : Nat} (h : isWhole n = true) : units n / one * one = units n :=
  Nat.div_mul_cancel (Nat.dvd_of_mod_eq_zero (of_decide_eq_true h))

/-! ## The law of rounding -/

/-- The whole number nearest to a fraction, of two equally near the even one. -/
theorem roundEven_le_iff {num den q : Nat} (h : 0 < den) :
    roundEven num den ≤ q ↔
      2 * num < (2 * q + 1) * den ∨ (2 * num = (2 * q + 1) * den ∧ q % 2 = 0) := by
  have hdm : den * (num / den) + num % den = num := Nat.div_add_mod num den
  have hlt : num % den < den := Nat.mod_lt num h
  have hle : num / den ≤ roundEven num den ∧ roundEven num den ≤ num / den + 1 := by
    unfold roundEven
    dsimp only
    split <;> omega
  rcases Nat.lt_trichotomy q (num / den) with hq | hq | hq
  · have hmul : (2 * q + 2) * den ≤ 2 * (num / den) * den := Nat.mul_le_mul_right den (by omega)
    have hexp : (2 * q + 2) * den = (2 * q + 1) * den + den := by ring
    have htwo : 2 * (num / den) * den = 2 * (den * (num / den)) := by ring
    omega
  · have hexp : (2 * q + 1) * den = 2 * (den * (num / den)) + den := by rw [hq]; ring
    rw [hexp, hq]
    unfold roundEven
    dsimp only
    split <;> omega
  · have hmul : (2 * (num / den) + 3) * den ≤ (2 * q + 1) * den :=
      Nat.mul_le_mul_right den (by omega)
    have hexp : (2 * (num / den) + 3) * den = 2 * (den * (num / den)) + 3 * den := by ring
    omega

theorem roundEven_le {num den q : Nat} (h : 0 < den) (hnum : num ≤ q * den) :
    roundEven num den ≤ q := by
  apply (roundEven_le_iff h).mpr
  left
  have hexp : (2 * q + 1) * den = 2 * (q * den) + den := by ring
  omega

theorem le_roundEven {num den q : Nat} (h : 0 < den) (hnum : q * den ≤ num) :
    q ≤ roundEven num den := by
  by_contra hlt
  obtain ⟨p, rfl⟩ : ∃ p, q = p + 1 := ⟨q - 1, by omega⟩
  have hle : roundEven num den ≤ p := by omega
  rw [roundEven_le_iff h] at hle
  have hexp : (2 * p + 1) * den + den = 2 * ((p + 1) * den) := by ring
  omega

/-- What is not larger than a magnitude lies below the middle after it, and below
    all later ones. -/
theorem lt_middle {num den m n : Nat} (h : 0 < den) (hm : m ≤ n) (hnum : num ≤ units m * den) :
    2 * num < (units n + units (n + 1)) * den := by
  have hself : units m ≤ units n := units_strictMono.monotone hm
  have hone : units n < units (n + 1) := units_strictMono (Nat.lt_succ_self n)
  calc 2 * num ≤ 2 * (units m * den) := Nat.mul_le_mul_left 2 hnum
    _ = 2 * units m * den := (Nat.mul_assoc ..).symm
    _ < (units n + units (n + 1)) * den := Nat.mul_lt_mul_of_pos_right (by omega) h

/-- What is not smaller than a magnitude lies above the middle before it, and above
    all earlier ones. -/
theorem middle_lt {num den m n : Nat} (h : 0 < den) (hm : n < m) (hnum : units m * den ≤ num) :
    (units n + units (n + 1)) * den < 2 * num := by
  have hself : units n < units m := units_strictMono hm
  have hnext : units (n + 1) ≤ units m := units_strictMono.monotone hm
  calc (units n + units (n + 1)) * den < 2 * units m * den :=
        Nat.mul_lt_mul_of_pos_right (by omega) h
    _ = 2 * (units m * den) := Nat.mul_assoc ..
    _ ≤ 2 * num := Nat.mul_le_mul_left 2 hnum

/-- The exponent at which a fraction is rounded: between its first magnitude and
    that of the next exponent lies the fraction. -/
theorem exponent_bounds (num : Nat) {den : Nat} (h : 0 < den) :
    ∃ e, nearest num den = e * binade + roundEven num (den * 2 ^ e) ∧
      (e = 0 ∨ binade * (den * 2 ^ e) ≤ num) ∧ num < 2 * binade * (den * 2 ^ e) := by
  refine ⟨(num / den).log2 - 52, rfl, ?_, ?_⟩
  · rcases Nat.eq_zero_or_pos ((num / den).log2 - 52) with he | he
    · exact .inl he
    · right
      have hne : num / den ≠ 0 := by
        intro h0
        rw [h0] at he
        exact absurd he (by decide)
      calc binade * (den * 2 ^ ((num / den).log2 - 52))
          = 2 ^ (52 + ((num / den).log2 - 52)) * den := by rw [binade_pow, Nat.pow_add]; ring
        _ = 2 ^ (num / den).log2 * den := by congr 2; omega
        _ ≤ num / den * den := Nat.mul_le_mul_right den (Nat.log2_self_le hne)
        _ ≤ num := Nat.div_mul_le_self num den
  · have hpow : num / den < 2 ^ (((num / den).log2 - 52) + 53) :=
      Nat.lt_of_lt_of_le Nat.lt_log2_self (Nat.pow_le_pow_right (by decide) (by omega))
    calc num < 2 ^ (((num / den).log2 - 52) + 53) * den := (Nat.div_lt_iff_lt_mul h).mp hpow
      _ = 2 * binade * (den * 2 ^ ((num / den).log2 - 52)) := by
        rw [binade_pow, Nat.pow_add]; ring

/-- At an exponent the steps are counted, and the nearest step is the nearest
    magnitude. -/
theorem Place.roundEven_le_iff {num den n e k : Nat} (hp : Place n e k) (hk : k < 2 * binade)
    (h : 0 < den) :
    roundEven num (den * 2 ^ e) ≤ k ↔ 2 * num < (units n + units (n + 1)) * den ∨
      (2 * num = (units n + units (n + 1)) * den ∧ n % 2 = 0) := by
  have hstep : 0 < den * 2 ^ e := Nat.mul_pos h (Nat.two_pow_pos e)
  have heven : n % 2 = k % 2 := by
    rw [hp.rank, binade_eq]
    omega
  have hmid : (k * 2 ^ e + (k + 1) * 2 ^ e) * den = (2 * k + 1) * (den * 2 ^ e) := by ring
  rw [hp.units_eq, (hp.next hk).units_eq, hmid, heven]
  exact Binary64.roundEven_le_iff hstep

/-- Rounding is to the nearest magnitude, and to the one of even rank from the
    middle between two. -/
theorem nearest_le_iff {num den n : Nat} (h : 0 < den) :
    nearest num den ≤ n ↔ 2 * num < (units n + units (n + 1)) * den ∨
      (2 * num = (units n + units (n + 1)) * den ∧ n % 2 = 0) := by
  obtain ⟨e, hnear, hlow, hhigh⟩ := exponent_bounds num h
  have hstep : 0 < den * 2 ^ e := Nat.mul_pos h (Nat.two_pow_pos e)
  rcases Nat.lt_or_ge n (e * binade + 2 * binade) with hn | hn
  · by_cases hin : e = 0 ∨ e * binade + binade ≤ n
    · -- At this exponent `roundEven` finds the nearest step.
      obtain ⟨k, rfl⟩ : ∃ k, n = e * binade + k := by
        refine ⟨n - e * binade, ?_⟩
        rcases hin with rfl | hin <;> omega
      have hk : Place (e * binade + k) e k := ⟨rfl, hin.imp_right fun hi => by omega, by omega⟩
      rw [hnear, ← hk.roundEven_le_iff (by omega) h]
      omega
    · -- Below the exponent: the fraction is not less than its first magnitude.
      obtain ⟨he, hbelow⟩ := not_or.mp hin
      have hlow := hlow.resolve_left he
      have hfirst : units (e * binade + binade) = binade * 2 ^ e :=
        Place.units_eq ⟨rfl, .inr (Nat.le_refl _), by omega⟩
      have hround : binade ≤ roundEven num (den * 2 ^ e) := le_roundEven hstep hlow
      have hmid : (units n + units (n + 1)) * den < 2 * num := by
        apply middle_lt h (Nat.lt_of_not_le hbelow)
        calc units (e * binade + binade) * den = binade * (den * 2 ^ e) := by rw [hfirst]; ring
          _ ≤ num := hlow
      omega
  · -- Beyond the exponent: the fraction is less than the first magnitude there.
    have hlast : units (e * binade + 2 * binade) = 2 * binade * 2 ^ e :=
      Place.units_eq ⟨rfl, .inr (by omega), Nat.le_refl _⟩
    have hround : roundEven num (den * 2 ^ e) ≤ 2 * binade := roundEven_le hstep hhigh.le
    have hmid : 2 * num < (units n + units (n + 1)) * den := by
      apply lt_middle h hn
      calc num ≤ 2 * binade * (den * 2 ^ e) := hhigh.le
        _ = units (e * binade + 2 * binade) * den := by rw [hlast]; ring
    omega

/-! ## What follows from the law -/

/-- A magnitude is rounded to itself, however the fraction is written. -/
theorem nearest_units (n : Nat) {d : Nat} (h : 0 < d) : nearest (units n * d) d = n := by
  apply Nat.le_antisymm
  · apply (nearest_le_iff h).mpr
    left
    exact lt_middle h (Nat.le_refl n) (Nat.le_refl _)
  · by_contra hlt
    have hle : nearest (units n * d) d ≤ n - 1 := by omega
    rw [nearest_le_iff h] at hle
    have hmid : (units (n - 1) + units (n - 1 + 1)) * d < 2 * (units n * d) :=
      middle_lt h (by omega) (Nat.le_refl _)
    omega

/-- A larger fraction has no smaller nearest magnitude. -/
theorem nearest_mono {num den num' den' : Nat} (h : 0 < den) (h' : 0 < den')
    (hle : num * den' ≤ num' * den) : nearest num den ≤ nearest num' den' := by
  have hself := (nearest_le_iff h').mp (Nat.le_refl (nearest num' den'))
  rw [nearest_le_iff h]
  -- The smaller fraction stays below the middle that the larger one stays below.
  generalize hmid : units (nearest num' den') + units (nearest num' den' + 1) = mid at hself ⊢
  have hcross : 2 * num * den' ≤ 2 * num' * den := by
    rw [Nat.mul_assoc, Nat.mul_assoc]
    exact Nat.mul_le_mul_left 2 hle
  have hswap : mid * den' * den = mid * den * den' := by ring
  rcases hself with hlt | ⟨heq, heven⟩
  · left
    apply Nat.lt_of_mul_lt_mul_right (a := den')
    calc 2 * num * den' ≤ 2 * num' * den := hcross
      _ < mid * den' * den := Nat.mul_lt_mul_of_pos_right hlt h
      _ = mid * den * den' := hswap
  · have hnum : 2 * num ≤ mid * den := by
      apply Nat.le_of_mul_le_mul_right (c := den') _ h'
      calc 2 * num * den' ≤ 2 * num' * den := hcross
        _ = mid * den * den' := by rw [heq, hswap]
    exact hnum.lt_or_eq.imp_right fun he => ⟨he, heven⟩

/-- Equal fractions have the same nearest magnitude. -/
theorem nearest_congr {num den num' den' : Nat} (h : 0 < den) (h' : 0 < den')
    (he : num * den' = num' * den) : nearest num den = nearest num' den' :=
  Nat.le_antisymm (nearest_mono h h' he.le) (nearest_mono h' h he.ge)

/-- The magnitude nearest to a whole number is whole: above `2^53` they all are, and up
    to there each whole number is a magnitude itself. -/
theorem isWhole_nearest (k : Nat) : isWhole (nearest (k * one) 1) = true := by
  obtain ⟨e, hnear, hlow, hhigh⟩ := exponent_bounds (k * one) Nat.one_pos
  rw [Nat.one_mul] at hnear hlow hhigh
  have hstep : 0 < 2 ^ e := Nat.two_pow_pos e
  have hp : Place (nearest (k * one) 1) e (roundEven (k * one) (2 ^ e)) :=
    ⟨hnear, hlow.imp_right (le_roundEven hstep), roundEven_le hstep hhigh.le⟩
  apply decide_eq_true
  rw [hp.units_eq]
  apply Nat.mod_eq_zero_of_dvd
  obtain ⟨j, hone⟩ : ∃ j, one = Nat.pow 2 j := ⟨_, one_eq⟩
  have hone : one = 2 ^ j := hone
  -- Steps below the number one go into `k` evenly, and larger ones are whole themselves.
  rcases Nat.le_total e j with h | h
  · have hpow : one = 2 ^ (j - e) * 2 ^ e := by rw [hone, ← Nat.pow_add, Nat.sub_add_cancel h]
    have hexact : roundEven (k * one) (2 ^ e) = k * 2 ^ (j - e) := by
      rw [hpow, ← Nat.mul_assoc]
      exact Nat.le_antisymm (roundEven_le hstep (Nat.le_refl _))
        (le_roundEven hstep (Nat.le_refl _))
    rw [hexact, Nat.mul_assoc, ← hpow]
    exact Nat.dvd_mul_left one k
  · rw [hone]
    exact Nat.dvd_mul_left_of_dvd (Nat.pow_dvd_pow 2 h) _

/-- The middle above the last magnitude of an exponent. -/
theorem Place.middle {n e : Nat} (h : Place n (e + 1) (2 * binade - 1)) :
    units n + units (n + 1) = 2 * ((2 ^ 54 - 1) * 2 ^ e) := by
  rw [h.units_eq, (h.next (by decide)).units_eq, binade_eq, Nat.pow_succ]
  ring

/-- A fraction stays finite below the middle between the largest finite magnitude
    and the one that would come after it. -/
theorem nearest_lt_infinity_iff {num den : Nat} (h : 0 < den) :
    nearest num den < infinity ↔ num < (2 ^ 54 - 1) * 2 ^ 2044 * den := by
  have hlarge : Place (infinity - 1) (2044 + 1) (2 * binade - 1) :=
    ⟨by decide, by decide, by decide⟩
  have hsucc : infinity - 1 + 1 = infinity := by decide
  have hodd : (infinity - 1) % 2 ≠ 0 := by decide
  have hmiddle := hlarge.middle
  rw [hsucc] at hmiddle
  have hle : nearest num den < infinity ↔ nearest num den ≤ infinity - 1 := by
    have : 0 < infinity := by decide
    omega
  rw [hle, nearest_le_iff h, hsucc, hmiddle, Nat.mul_assoc 2]
  omega

end Calculator.Binary64
