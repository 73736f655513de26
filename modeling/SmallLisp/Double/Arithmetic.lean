/-
# Arithmetic on doubles

Sum, difference, product and quotient: each is the exact result, rounded once to the nearest
double. An exact zero keeps the sign that its operands agree on and is positive if they do not;
for products and quotients the sign is the product of the signs, also of zeros and infinities.

Key definitions: `Double.add`, `Double.sub`, `Double.mul`, `Double.div`.
-/
import SmallLisp.Double.Nearest

namespace SmallLisp
namespace Double

def neg : Double → Double
  | .nan => .nan
  | .signed negative rank le => .signed (!negative) rank le

/-- A finite number as a signed count of units. -/
def signedUnits (negative : Bool) (rank : Nat) : Int :=
  if negative then -(units rank : Int) else units rank

def add : Double → Double → Double
  | .nan, _ => .nan
  | _, .nan => .nan
  | .signed n a _, .signed m b _ =>
    if a = infinityRank then
      if b = infinityRank && n != m then .nan else infinite n
    else if b = infinityRank then infinite m
    else
      let sum := signedUnits n a + signedUnits m b
      if sum = 0 then ofRank (n && m) 0
      else ofUnits (sum < 0) sum.natAbs 1

def sub (x y : Double) : Double := add x y.neg

def mul : Double → Double → Double
  | .nan, _ => .nan
  | _, .nan => .nan
  | .signed n a _, .signed m b _ =>
    if a = infinityRank then
      if b = 0 then .nan else infinite (n != m)
    else if b = infinityRank then
      if a = 0 then .nan else infinite (n != m)
    else ofUnits (n != m) (units a * units b) unitsPerOne

/-- A quotient by zero is infinite, unless the dividend is zero as well. -/
def div : Double → Double → Double
  | .nan, _ => .nan
  | _, .nan => .nan
  | .signed n a _, .signed m b _ =>
    if a = infinityRank then
      if b = infinityRank then .nan else infinite (n != m)
    else if b = infinityRank then ofRank (n != m) 0
    else if b = 0 then
      if a = 0 then .nan else infinite (n != m)
    else ofRatio (n != m) (units a) (units b)

end Double
end SmallLisp
