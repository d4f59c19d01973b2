/- The binary64 numbers by their place in the order. The magnitudes, zero and
   infinity included, are numbered from 0 upwards by `rank`, and every finite
   one is a whole number of units of 2^-1074 (`units`). `nearest` is the rank
   nearest to any fraction, in natural number arithmetic, so that reading and
   printing numbers never touch an inexact operation. -/
namespace Calculator.Binary64

/-! ## Ranks -/

/-- The code of the minus sign, above the codes of all magnitudes. -/
def signBit : Nat := Nat.pow 2 63

/-- How many magnitudes share an exponent. -/
def binade : Nat := Nat.pow 2 52

/-- The place of the magnitude of `x` among all magnitudes. -/
def rank (x : Float) : Nat := x.toBits.toNat % signBit

/-- Whether `x` carries a minus sign, as -0 does. -/
def isNegative (x : Float) : Bool := signBit ≤ x.toBits.toNat

/-- The number with this sign and rank. -/
def ofRank (negative : Bool) (n : Nat) : Float :=
  Float.ofBits (UInt64.ofNat (if negative then signBit + n else n))

/-- The rank of infinity: below it stand the finite magnitudes, above it the
    codes that are not numbers. -/
def infinity : Nat := 2047 * binade

def isFinite (x : Float) : Bool := rank x < infinity

def isNaN (x : Float) : Bool := infinity < rank x

/-- Zero of either sign. -/
def isZero (x : Float) : Bool := rank x = 0

/-! ## Magnitudes -/

/-- The number one in units of 2^-1074. -/
def one : Nat := Nat.pow 2 1074

/-- The magnitude of rank `n` in units of 2^-1074. Within an exponent they are
    equally spaced; the first exponent starts at zero, and from the second on
    each spacing is twice the one before. -/
def units (n : Nat) : Nat :=
  match n / binade with
  | 0 => n
  | e + 1 => (binade + n % binade) * Nat.pow 2 e

/-- Whether the magnitude of rank `n` is a whole number. -/
def isWhole (n : Nat) : Bool := units n % one = 0

/-- The whole number nearest to `num / den`, of two equally near the even one. -/
def roundEven (num den : Nat) : Nat :=
  let q := num / den
  let twice := 2 * (num % den)
  if twice < den ∨ (twice = den ∧ q % 2 = 0) then q else q + 1

/-- The rank of the magnitude nearest to `num / den` units, of two equally near
    the even one. Rounding up past the last magnitude of an exponent lands on
    the first of the next, and rounding past the largest finite one on
    `infinity` or above. -/
def nearest (num den : Nat) : Nat :=
  let e := (num / den).log2 - 52
  e * binade + roundEven num (den * Nat.pow 2 e)

end Calculator.Binary64
