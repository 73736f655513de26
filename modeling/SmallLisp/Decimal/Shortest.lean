/-
# The shortest decimal of a double

Of all decimals that the nearest double reads back as a given positive finite double, the one
with the fewest digits; of several with as few digits the nearest, and of two equally near the
one with the even last digit. A grid of decimals with `n` digits can only hit if one of the two
grid points beside the double does, so those two are tried for `n` from 1 to 17.

Key definitions: `Decimal`, `Decimal.readsBack`, `Decimal.shortest`.
-/
import SmallLisp.Decimal.Numeral

namespace SmallLisp

/-- The decimal `coefficient * 10 ^ exponent`. -/
structure Decimal where
  coefficient : Nat
  exponent : Int
  deriving DecidableEq

namespace Decimal

/-- Whether the double nearest to a decimal is the positive one of a given rank. -/
def readsBack (rank : Nat) (x : Decimal) : Bool :=
  Double.ofDecimal false x.coefficient x.exponent == .ofRank false rank

/-- How many decimal digits a number has. -/
def length (n : Nat) : Nat := (Nat.toDigits 10 n).length

/-- A double divided by a power of ten, as a quotient of whole numbers. -/
def scaled (rank : Nat) : Int → Nat × Nat
  | .ofNat e => (Double.units rank, Double.unitsPerOne * Nat.pow 10 e)
  | .negSucc e => (Double.units rank * Nat.pow 10 (e + 1), Double.unitsPerOne)

/-- The power of ten of a double's first digit. -/
def leadingExponent (rank : Nat) : Int :=
  let guess : Int := (length (Double.units rank) : Int) - length Double.unitsPerOne
  let (num, den) := scaled rank guess
  if den ≤ num then guess else guess - 1

/-- The two multiples of `10 ^ exponent` on either side of a double, the nearer first, and of
two equally near the even one. -/
def beside (rank : Nat) (exponent : Int) : List Decimal :=
  let (num, den) := scaled rank exponent
  let low := num / den
  let twice := 2 * (num % den)
  if twice < den ∨ (twice = den ∧ low % 2 = 0) then [⟨low, exponent⟩, ⟨low + 1, exponent⟩]
  else [⟨low + 1, exponent⟩, ⟨low, exponent⟩]

/-- All digits of a double: it is its number of units divided by `2 ^ 1074`, and so that number
times `5 ^ 1074`, divided by `10 ^ 1074`. -/
def exact (rank : Nat) : Decimal := ⟨Double.units rank * Nat.pow 5 1074, -1074⟩

/-- The shortest decimal that reads back as a positive finite double. -/
def shortest (rank : Nat) : Decimal :=
  let first := leadingExponent rank
  ((List.range 17).findSome? fun (n : Nat) => (beside rank (first - n)).find? (readsBack rank)).getD
    (exact rank)

end Decimal
end SmallLisp
