/-
# The nearest double

`Double.ofRatio` is the double nearest to a quotient of two whole numbers; of two equally near
ones it is the one with the even significand. The work is done on ranks: the quotient, counted
in units of the smallest double, is divided by the spacing of its binade and rounded to a whole
number, and a quotient rounded up to the end of a binade is the first rank of the next one.

Key definitions: `Double.roundHalfEven`, `Double.nearestRank`, `Double.ofRatio`.
-/
import SmallLisp.Double

namespace SmallLisp
namespace Double

/-- The whole number nearest to `num / den`; a half goes to the even neighbour. -/
def roundHalfEven (num den : Nat) : Nat :=
  let low := num / den
  let twice := 2 * (num % den)
  if twice < den then low
  else if den < twice then low + 1
  else if low % 2 = 0 then low
  else low + 1

/-- The rank nearest to `num / den` units. Below `2 ^ 53` units the doubles are one unit apart;
above, the spacing is the power of two that leaves 53 significant bits. -/
def nearestRank (num den : Nat) : Nat :=
  let spacing := (num / den).log2 - 52
  spacing * Nat.pow 2 52 + roundHalfEven num (den * Nat.pow 2 spacing)

/-- The double nearest to `num / den` units of the smallest double. -/
def ofUnits (negative : Bool) (num den : Nat) : Double :=
  ofRank negative (nearestRank num den)

/-- The double nearest to `num / den`. -/
def ofRatio (negative : Bool) (num den : Nat) : Double :=
  ofUnits negative (num * unitsPerOne) den

/-- The double nearest to a whole number. -/
def ofNat (n : Nat) : Double := ofRatio false n 1

end Double
end SmallLisp
