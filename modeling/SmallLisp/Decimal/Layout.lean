/-
# The layout of decimals

How the digits of a decimal are written down: positionally if its first digit counts a power of
ten within a range, and otherwise as a first digit, a point and the others, with the power of ten
after an `e`. `Layout` holds the choices, and `Layout.plain` is the one that this library prints
with.

Key definitions: `Layout`, `Layout.plain`, `Decimal.write`, `Double.write`.
-/
import SmallLisp.Decimal.Shortest

namespace SmallLisp

/-- The choices in writing a decimal. -/
structure Layout where
  /-- The least power of ten of a first digit that is written positionally. -/
  least : Int
  /-- The first power of ten above it that is no longer written positionally. -/
  below : Int
  /-- How many digits an exponent has at least. -/
  exponentDigits : Nat

/-- Positional from `0.0001` up to sixteen digits before the point; exponents have a sign and
two digits at least. -/
def Layout.plain : Layout := ⟨-4, 16, 2⟩

namespace Decimal

/-- Digits without the zeros at their end. -/
def stripZeros (digits : List Char) : List Char :=
  (digits.reverse.dropWhile (· == '0')).reverse

/-- Digits with the point after the first `point` of them; the missing places are zeros, and a
whole number keeps one zero after its point. -/
def positional (digits : List Char) (point : Int) : List Char :=
  if point ≤ 0 then '0' :: '.' :: List.replicate point.natAbs '0' ++ digits
  else if digits.length ≤ point.toNat then
    digits ++ List.replicate (point.toNat - digits.length) '0' ++ ['.', '0']
  else digits.take point.toNat ++ '.' :: digits.drop point.toNat

/-- An exponent with its sign and its least number of digits. -/
def exponentText (atLeast : Nat) (e : Int) : List Char :=
  let digits := Nat.toDigits 10 e.natAbs
  (if e < 0 then '-' else '+') :: List.replicate (atLeast - digits.length) '0' ++ digits

/-- Digits with the point after the first one, and the power of ten of that one. -/
def scientific (atLeast : Nat) (digits : List Char) (e : Int) : List Char :=
  match digits with
  | [] => []
  | [d] => d :: 'e' :: exponentText atLeast e
  | d :: ds => d :: '.' :: ds ++ 'e' :: exponentText atLeast e

/-- The text of a positive decimal. -/
def write (layout : Layout) (x : Decimal) : List Char :=
  let digits := Nat.toDigits 10 x.coefficient
  let point : Int := digits.length + x.exponent
  if layout.least ≤ point - 1 ∧ point - 1 < layout.below then positional (stripZeros digits) point
  else scientific layout.exponentDigits (stripZeros digits) (point - 1)

end Decimal

/-- The shortest text of a double that reads back as it. -/
def Double.write (layout : Layout) : Double → List Char
  | .nan => ['n', 'a', 'n']
  | .signed negative rank _ =>
    (if negative then ['-'] else []) ++
      (if rank = infinityRank then ['i', 'n', 'f']
       else if rank = 0 then ['0', '.', '0']
       else (Decimal.shortest rank).write layout)

end SmallLisp
