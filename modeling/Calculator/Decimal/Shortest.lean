import Calculator.Decimal.Basic
/- The shortest decimal that reads back as a given magnitude. Every finite
   magnitude is a whole multiple of 10^-1074, so the decimals that come into
   question lie on the grids of the multiples of 10^(j - 1074), for j from a
   bound above the magnitude down to 0. `shortest` takes the first grid on which
   one of the two neighbours of the magnitude reads back. -/
namespace Calculator.Decimal
open Binary64

/-- The magnitude of rank `n` counted in units of 10^-1074. -/
def parts (n : Nat) : Nat := units n * Nat.pow 5 1074

/-- The decimal `i * 10^(j - 1074)`. -/
def onGrid (j i : Nat) : Decimal := ⟨i * Nat.pow 10 (j - 1074), 1074 - j⟩

/-- The neighbour of the magnitude of rank `n` on the grid `j` that reads back:
    of two the nearer one, and the upper one when both are equally near. -/
def neighbour? (n j : Nat) : Option Decimal :=
  let step := Nat.pow 10 j
  let below := onGrid j (parts n / step)
  let above := onGrid j (parts n / step + 1)
  if below.rank = n then
    if above.rank = n ∧ step ≤ 2 * (parts n % step) then some above else some below
  else if above.rank = n then some above else none

/-- The neighbour on the first of the grids `j, …, 1` that has one that reads
    back, else the exact decimal, which is on grid 0. -/
def coarsest (n : Nat) : Nat → Decimal
  | 0 => onGrid 0 (parts n)
  | j + 1 => (neighbour? n (j + 1)).getD (coarsest n j)

/-- A grid coarser than the magnitude of rank `n`, since 2^100000 < 10^30103. -/
def topGrid (n : Nat) : Nat := (parts n).log2 * 30103 / 100000 + 2

/-- The shortest decimal that reads back as the magnitude of rank `n`, and the
    nearest of those. -/
def shortest (n : Nat) : Decimal := coarsest n (topGrid n)

end Calculator.Decimal
