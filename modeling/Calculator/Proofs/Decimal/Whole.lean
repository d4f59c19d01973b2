import Calculator.Proofs.Decimal.Value
/- Whole numbers and points. The text of a decimal has a point exactly if its fraction
   has a digit that is not zero (`point_mem_text_iff`), and no zero at its end; before
   the point stand the digits of a whole number, which begin with zero for zero only
   (`head?_toDigits`). The shortest decimal of a magnitude has no fraction if the
   magnitude is whole, since the grid of the whole numbers is reached before any finer
   one (`places_shortest`). It has one if the magnitude is not whole, since a whole
   decimal has a whole magnitude for its nearest (`isWhole_rank`). -/
namespace Calculator.Decimal
open Binary64

/-! ## Points -/

theorem point_mem_text_iff (d : Decimal) : '.' ∈ d.text.toList ↔ d.fraction ≠ [] := by
  have hwhole : '.' ∉ d.whole := fun hmem => absurd (d.whole_digits _ hmem) (by decide)
  rw [toList_text]
  split
  · next hf => exact ⟨fun hmem => absurd hmem hwhole, fun h => absurd hf h⟩
  · next hf => exact ⟨fun _ => hf, fun _ => List.mem_append_right _ List.mem_cons_self⟩

/-- A fraction does not end with a zero. -/
theorem fraction_getLast? (d : Decimal) : d.fraction.getLast? ≠ some '0' := by
  have hhead := List.head?_dropWhile_not (fun c => decide (c = '0')) (lowDigits d.places d.digits)
  rw [fraction, List.getLast?_reverse]
  intro hzero
  rw [hzero] at hhead
  cases hhead

theorem not_pointZero_suffix (d : Decimal) : ¬ ['.', '0'] <:+ d.text.toList := by
  rintro ⟨before, hbefore⟩
  have hpoint : '.' ∈ d.text.toList := by
    rw [← hbefore]
    simp
  have hf := d.point_mem_text_iff.mp hpoint
  have hlast := congrArg List.getLast? hbefore
  rw [toList_text, if_neg hf, List.getLast?_append_of_ne_nil _ (List.cons_ne_nil _ _),
    List.getLast?_append_of_ne_nil _ (List.cons_ne_nil _ _),
    List.getLast?_cons_of_ne_nil hf] at hlast
  exact d.fraction_getLast? hlast.symm

/-- Only zero is written with a zero at the front. -/
theorem head?_toDigits {n : Nat} (h : 0 < n) : (Nat.toDigits 10 n).head? ≠ some '0' := by
  induction n using Nat.strongRecOn with
  | ind n ih =>
    rcases Nat.lt_or_ge n 10 with hn | hn
    · rw [Nat.toDigits_of_lt_base hn]
      intro hzero
      have hcode := congrArg Char.toNat (Option.some.inj hzero)
      have hcode0 : '0'.toNat = 48 := rfl
      rw [Nat.toNat_digitChar_of_lt_ten hn] at hcode
      omega
    · rw [Nat.toDigits_of_base_le (by decide) hn, List.head?_append_of_ne_nil _ Nat.toDigits_ne_nil]
      exact ih (n / 10) (by omega) (by omega)

/-! ## Whole decimals and whole magnitudes -/

/-- The magnitude nearest to a decimal without a fraction is whole. -/
theorem isWhole_rank {d : Decimal} (h : d.fraction = []) : isWhole d.rank = true := by
  obtain ⟨zeros, hlength, hfraction⟩ := d.fraction_eq
  have hten : 0 < Nat.pow 10 d.places := Nat.pow_pos (by decide)
  have hmod : d.digits % 10 ^ d.places = 0 := by
    rw [← hfraction, h, Nat.ofDigitChars_nil, Nat.zero_mul]
  obtain ⟨k, hk⟩ := Nat.dvd_of_mod_eq_zero hmod
  have hrank : d.rank = nearest (k * one) 1 := by
    apply nearest_congr hten Nat.one_pos
    rw [hk]
    show 10 ^ d.places * k * one * 1 = k * one * 10 ^ d.places
    ring
  rw [hrank]
  exact isWhole_nearest k

/-- A whole magnitude is the one nearest to its digits. -/
theorem rank_whole {n : Nat} (h : isWhole n = true) : rank ⟨units n / one, 0⟩ = n := by
  have hone : Nat.pow 10 0 = 1 := rfl
  rw [rank, whole_units h, hone, ← Nat.mul_one (units n)]
  exact nearest_units n Nat.one_pos

/-- A decimal without places is written as the whole number that it is. -/
theorem text_whole (n : Nat) : text ⟨n, 0⟩ = n.repr := by
  show (n / Nat.pow 10 0).repr = n.repr
  rw [show Nat.pow 10 0 = 1 from rfl, Nat.div_one]

theorem places_neighbour? {n j : Nat} {d : Decimal} (h : neighbour? n j = some d) :
    d.places = 1074 - j := by
  unfold neighbour? at h
  dsimp only at h
  split at h
  · split at h
    · rw [← Option.some.inj h, onGrid]
    · rw [← Option.some.inj h, onGrid]
  · split at h
    · rw [← Option.some.inj h, onGrid]
    · cases h

/-- On a grid that the magnitude stands on it is found. -/
theorem neighbour?_ne_none {n j i : Nat} (h : parts n = i * Nat.pow 10 j)
    (hrank : (onGrid j i).rank = n) : neighbour? n j ≠ none := by
  have hten : 0 < Nat.pow 10 j := Nat.pow_pos (by decide)
  have hbelow : (onGrid j (parts n / Nat.pow 10 j)).rank = n := by
    rw [h, Nat.mul_div_cancel _ hten, hrank]
  unfold neighbour?
  dsimp only
  rw [if_pos hbelow]
  split <;> exact Option.some_ne_none _

/-- Whole magnitudes stand on the grid that has no places. -/
theorem parts_whole {n k : Nat} (hk : k = 1074) (h : isWhole n = true) :
    parts n = units n / one * Nat.pow 10 k := by
  have hparts : parts n = units n * Nat.pow 5 k := by
    delta parts
    rw [← hk]
  have hten : Nat.pow 10 k = one * Nat.pow 5 k := by
    rw [one_eq, ← hk]
    exact Nat.mul_pow 2 5 k
  rw [hparts, hten, ← Nat.mul_assoc, whole_units h]

theorem neighbour?_whole {n k : Nat} (hk : k = 1074) (h : isWhole n = true) :
    neighbour? n k ≠ none := by
  apply neighbour?_ne_none (parts_whole hk h)
  have hgrid (i : Nat) : onGrid k i = ⟨i, 0⟩ := by
    rw [hk]
    show (⟨i * Nat.pow 10 0, 0⟩ : Decimal) = ⟨i, 0⟩
    rw [show Nat.pow 10 0 = 1 from rfl, Nat.mul_one]
  rw [hgrid, rank_whole h]

theorem places_coarsest {n j : Nat} (h : isWhole n = true) (hj : 1074 ≤ j) :
    (coarsest n j).places = 0 := by
  induction j with
  | zero => exact absurd hj (by decide)
  | succ j ih =>
    rw [coarsest]
    cases hd : neighbour? n (j + 1) with
    | some d =>
      rw [Option.getD_some, places_neighbour? hd]
      omega
    | none =>
      -- The grid of the whole numbers is not passed over, so this is a coarser one.
      have hfiner : j + 1 ≠ 1074 := fun hk => neighbour?_whole hk h hd
      exact ih (by omega)

/-- A number of `k` places has more than `93 / 28` as many bits, since `2^93 < 10^28`. -/
theorem lt_log2_of_pow_le {k m : Nat} (h : 10 ^ k ≤ m) : 93 * k < 28 * (m.log2 + 1) := by
  have hbase : 2 ^ 93 ≤ 10 ^ 28 := by decide
  apply (Nat.pow_lt_pow_iff_right (a := 2) (by decide)).mp
  calc 2 ^ (93 * k) = (2 ^ 93) ^ k := Nat.pow_mul ..
    _ ≤ (10 ^ 28) ^ k := Nat.pow_le_pow_left hbase k
    _ = (10 ^ k) ^ 28 := Nat.pow_right_comm ..
    _ ≤ m ^ 28 := Nat.pow_le_pow_left h 28
    _ < (2 ^ (m.log2 + 1)) ^ 28 := Nat.pow_lt_pow_left Nat.lt_log2_self (by decide)
    _ = 2 ^ (28 * (m.log2 + 1)) := by rw [← Nat.pow_mul, Nat.mul_comm]

/-- The search begins above the grid of the whole numbers. -/
theorem le_topGrid {n : Nat} (h : isWhole n = true) (hn : 0 < n) : 1074 ≤ topGrid n := by
  obtain ⟨k, hk⟩ : ∃ k, k = 1074 := ⟨_, rfl⟩
  have hunits : 0 < units n := units_strictMono hn
  rw [← whole_units h] at hunits
  have hparts : 10 ^ k ≤ parts n := by
    rw [parts_whole hk h]
    exact Nat.le_mul_of_pos_left _ (Nat.pos_of_mul_pos_right hunits)
  have hlog := lt_log2_of_pow_le hparts
  unfold topGrid
  omega

/-- The shortest decimal of a whole magnitude has no places. -/
theorem places_shortest {n : Nat} (h : isWhole n = true) (hn : 0 < n) :
    (shortest n).places = 0 := places_coarsest h (le_topGrid h hn)

end Calculator.Decimal
