/- Sets of characters as ranges of code points.

   A set is the list of its ranges, each with its first and last code point,
   in ascending order and apart from one another. The tables of this folder
   are those of Unicode 17.0. -/
namespace Calculator.Text

/-- Whether `n` is in a range of an ascending list. The search ends at the
    first range that starts after `n`. -/
def inRanges : List (Nat × Nat) → Nat → Bool
  | [], _ => false
  | r :: rs, n => r.1 ≤ n && (n ≤ r.2 || inRanges rs n)

end Calculator.Text
