import Calculator.Binary64
import Mathlib
/- Signs and ranks. A finite number is its sign and its rank: `ofRank` puts the
   two together, `isNegative` and `rank` take them apart (`rank_ofRank`,
   `isNegative_ofRank`, `ofRank_rank`), and negation changes the sign and leaves
   the rank (`neg_ofRank`). What is used of the number format is that its codes
   are a sign, an exponent and a fraction side by side (`toNat_word`), and what these
   stand for (`unpack_word`). -/
namespace Calculator.Binary64
open Float.Model Float.Model.UnpackedFloat

/-- The code of the number with this sign and rank. -/
def code (negative : Bool) (n : Nat) : Nat := if negative then signBit + n else n

/-- The sign of the number format that `negative` stands for. -/
def sign (negative : Bool) : Sign := if negative then .negative else .positive

theorem sign_not (negative : Bool) : sign (!negative) = -sign negative := by
  cases negative <;> rfl

/-- A sign, an exponent and a fraction side by side. -/
def word (negative : Bool) (n : Nat) : BitVec 64 :=
  packComponents .binary64 (sign negative) (BitVec.ofNat 11 (n / 2 ^ 52)) (BitVec.ofNat 52 n)

theorem toNat_word (negative : Bool) {n : Nat} (h : n < 2 ^ 63) :
    (word negative n).toNat = code negative n := by
  have hsign : (sign negative).toBitVec.toNat = negative.toNat := by cases negative <;> rfl
  have hparts : (word negative n).toNat =
      ((sign negative).toBitVec ++ BitVec.ofNat 11 (n / 2 ^ 52) ++ BitVec.ofNat 52 n).toNat := rfl
  rw [hparts, BitVec.toNat_append, BitVec.toNat_append, hsign, ← Nat.shiftLeft_add_eq_or_of_lt
    (BitVec.isLt _), ← Nat.shiftLeft_add_eq_or_of_lt (BitVec.isLt _), BitVec.toNat_ofNat,
    BitVec.toNat_ofNat, Nat.shiftLeft_eq, Nat.shiftLeft_eq]
  have hbit : signBit = 2 ^ 63 := rfl
  cases negative with
  | false =>
    show (0 * 2 ^ 11 + n / 2 ^ 52 % 2 ^ 11) * 2 ^ 52 + n % 2 ^ 52 = n
    omega
  | true =>
    show (1 * 2 ^ 11 + n / 2 ^ 52 % 2 ^ 11) * 2 ^ 52 + n % 2 ^ 52 = signBit + n
    omega

theorem ofRank_eq (negative : Bool) {n : Nat} (h : n < 2 ^ 63) :
    ofRank negative n = Float.ofBits ⟨word negative n⟩ := by
  have hcode : UInt64.ofNat (code negative n) = ⟨word negative n⟩ := by
    apply UInt64.toNat_inj.mp
    have hlt : code negative n < 2 ^ 64 := by
      rw [← toNat_word negative h]
      exact (word negative n).isLt
    rw [UInt64.toNat_ofNat_of_lt' hlt]
    exact (toNat_word negative h).symm
  exact congrArg Float.ofBits hcode

/-- The code of a finite number stays as it is. -/
theorem pack_unpack_word (negative : Bool) {n : Nat} (h : n < infinity) :
    UnpackedFloat.pack .binary64 (UnpackedFloat.unpack .binary64 (word negative n)) =
      word negative n := by
  have hexp : @unpackExponent .binary64 (word negative n) = BitVec.ofNat 11 (n / 2 ^ 52) :=
    unpackExponent_packComponents
  have hlow : (BitVec.ofNat 11 (n / 2 ^ 52)).toNat < 2047 := by
    have hinf : infinity = 2047 * 2 ^ 52 := rfl
    rw [BitVec.toNat_ofNat]
    omega
  rw [pack_unpack]
  apply if_neg
  intro hnan
  have hones : BitVec.ofNat 11 (n / 2 ^ 52) = -1#11 := by
    rw [← hexp]
    exact (of_decide_eq_true hnan).1
  rw [hones] at hlow
  exact absurd hlow (by decide)

/-- The bit that is not written stands before the fraction. -/
theorem toNat_implicit (m : BitVec 52) : (1#1 ++ m).toNat = 2 ^ 52 + m.toNat := by
  rw [BitVec.toNat_append, ← Nat.shiftLeft_add_eq_or_of_lt m.isLt, Nat.shiftLeft_eq]
  rfl

/-- What a code stands for, by its exponent. -/
theorem unpack_word (negative : Bool) (n : Nat) :
    UnpackedFloat.unpack .binary64 (word negative n) =
      if BitVec.ofNat 11 (n / 2 ^ 52) = -1#11 then
        if BitVec.ofNat 52 n = 0#52 then .infinity (sign negative) else .notANumber
      else if BitVec.ofNat 11 (n / 2 ^ 52) = 0#11 then
        if h : BitVec.ofNat 52 n = 0#52 then .zero (sign negative)
        else .finite (sign negative) (BitVec.ofNat 52 n).toNat (-1074)
          (Nat.pos_of_ne_zero fun hz => h (BitVec.eq_of_toNat_eq hz))
      else .finite (sign negative) (2 ^ 52 + (BitVec.ofNat 52 n).toNat)
        ((BitVec.ofNat 11 (n / 2 ^ 52)).toNat - 1075) (Nat.add_pos_left (by decide) _) := by
  unfold UnpackedFloat.unpack word
  simp only [unpackSign_packComponents, unpackExponent_packComponents,
    unpackMantissa_packComponents, Sign.ofBitVec_toBitVec, toNat_implicit]
  split
  · rfl
  · split
    · next h =>
      simp only [h]
      rfl
    · rfl

theorem unpack_word_neg (negative : Bool) (n : Nat) :
    (UnpackedFloat.unpack .binary64 (word negative n)).neg =
      UnpackedFloat.unpack .binary64 (word (!negative) n) := by
  rw [unpack_word, unpack_word, sign_not]
  split
  · split <;> rfl
  · split
    · split <;> rfl
    · rfl

theorem toBits_ofRank (negative : Bool) {n : Nat} (h : n < infinity) :
    (ofRank negative n).toBits = ⟨word negative n⟩ := by
  have hlt : n < 2 ^ 63 := Nat.lt_trans h (by decide)
  rw [ofRank_eq negative hlt]
  exact congrArg UInt64.ofBitVec (pack_unpack_word negative h)

theorem toNat_toBits_ofRank (negative : Bool) {n : Nat} (h : n < infinity) :
    (ofRank negative n).toBits.toNat = code negative n := by
  rw [toBits_ofRank negative h]
  exact toNat_word negative (Nat.lt_trans h (by decide))

theorem rank_ofRank (negative : Bool) {n : Nat} (h : n < infinity) :
    rank (ofRank negative n) = n := by
  have hlt : n < signBit := Nat.lt_trans h (by decide)
  rw [rank, toNat_toBits_ofRank negative h, code]
  split
  · rw [Nat.add_mod_left, Nat.mod_eq_of_lt hlt]
  · exact Nat.mod_eq_of_lt hlt

theorem isNegative_ofRank (negative : Bool) {n : Nat} (h : n < infinity) :
    isNegative (ofRank negative n) = negative := by
  have hlt : n < signBit := Nat.lt_trans h (by decide)
  rw [isNegative, toNat_toBits_ofRank negative h, code]
  cases negative with
  | false => exact decide_eq_false (Nat.not_le.mpr hlt)
  | true => exact decide_eq_true (Nat.le_add_right _ _)

/-- The code of a number is that of its sign and its rank. -/
theorem code_rank (x : Float) : code (isNegative x) (rank x) = x.toBits.toNat := by
  have hbit : signBit = 2 ^ 63 := rfl
  have hlt : x.toBits.toNat < 2 ^ 64 := x.toBits.toNat_lt
  rw [code, isNegative, rank]
  split
  · next hneg =>
    have hle := of_decide_eq_true hneg
    rw [hbit] at hle ⊢
    omega
  · next hpos =>
    have hle : ¬ signBit ≤ x.toBits.toNat := fun hle => hpos (decide_eq_true hle)
    rw [hbit] at hle ⊢
    omega

theorem rank_lt_signBit (x : Float) : rank x < signBit := Nat.mod_lt _ (by decide)

theorem toBitVec_toBits (x : Float) : x.toBits.toBitVec = word (isNegative x) (rank x) := by
  apply BitVec.eq_of_toNat_eq
  rw [toNat_word _ (rank_lt_signBit x), code_rank]
  rfl

/-- A number is the one of its sign and its rank. -/
theorem ofRank_rank (x : Float) : ofRank (isNegative x) (rank x) = x := by
  calc ofRank (isNegative x) (rank x)
      = Float.ofBits (UInt64.ofNat (code (isNegative x) (rank x))) := rfl
    _ = Float.ofBits x.toBits := by rw [code_rank, UInt64.ofNat_toNat]
    _ = x := Float.ofBits_toBits x

/-- All codes that are not numbers stand for the same. -/
theorem eq_nan_of_isNaN {x : Float} (h : isNaN x = true) : x = Float.nan := by
  have hlow : infinity < rank x := of_decide_eq_true h
  have hhigh : rank x < signBit := rank_lt_signBit x
  have hinf : infinity = 2047 * 2 ^ 52 := rfl
  have hbit : signBit = 2 ^ 63 := rfl
  have hexp : BitVec.ofNat 11 (rank x / 2 ^ 52) = -1#11 := by
    have hquot : rank x / 2 ^ 52 = 2047 := by omega
    rw [hquot]
    rfl
  have hfraction : BitVec.ofNat 52 (rank x) ≠ 0#52 := by
    intro hzero
    have hmod := congrArg BitVec.toNat hzero
    rw [BitVec.toNat_ofNat, BitVec.toNat_ofNat] at hmod
    omega
  have hnan : x.isNaN = true := by
    show (UnpackedFloat.unpack .binary64 x.toBits.toBitVec).isNaN = true
    rw [toBitVec_toBits, unpack_word, if_pos hexp, if_neg hfraction]
    rfl
  rw [Float.isNaN_eq_decide_eq_nan] at hnan
  exact of_decide_eq_true hnan

/-- Negation changes the sign of a finite number, and nothing else. -/
theorem neg_ofRank (negative : Bool) {n : Nat} (h : n < infinity) :
    -ofRank negative n = ofRank (!negative) n := by
  have hlt : n < 2 ^ 63 := Nat.lt_trans h (by decide)
  apply Float.toBits_inj.mp
  rw [toBits_ofRank _ h, ← pack_unpack_word _ h, ← unpack_word_neg, ofRank_eq negative hlt]
  show (⟨UnpackedFloat.pack .binary64 (UnpackedFloat.unpack .binary64
    (UnpackedFloat.pack .binary64 (UnpackedFloat.unpack .binary64 (word negative n)))).neg⟩ :
      UInt64) = _
  rw [pack_unpack_word negative h]

theorem neg_neg_of_isFinite {x : Float} (h : isFinite x = true) : - -x = x := by
  have hlt : rank x < infinity := of_decide_eq_true h
  calc - -x
      = - -ofRank (isNegative x) (rank x) := by rw [ofRank_rank]
    _ = ofRank (!(!isNegative x)) (rank x) := by rw [neg_ofRank _ hlt, neg_ofRank _ hlt]
    _ = x := by rw [Bool.not_not, ofRank_rank]

end Calculator.Binary64
