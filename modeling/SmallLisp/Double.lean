/-
# Double-precision numbers

The binary floating-point numbers of 53 significant bits: two zeros, two infinities, one
value that is no number, and between them the finite doubles, each a whole number of the
smallest positive one, `2 ^ -1074`.

A double is a sign and a rank. The rank is its place among the doubles from zero upwards:
zero has rank 0, the smallest positive double rank 1, and infinity rank `infinityRank`. So
order is order of ranks, and the text of no other representation is ever needed.

Key definitions: `Double`, `Double.units` (the value of a rank), `Double.order` (the place of
a double on the line), `Double.equal`, `Double.less`, `Double.atMost`.
-/
namespace SmallLisp

/-- The rank of infinity: 2047 binades of `2 ^ 52` doubles lie below it. -/
def Double.infinityRank : Nat := 0x7ff0000000000000

/-- A double-precision number. -/
inductive Double where
  | nan
  | signed (negative : Bool) (rank : Nat) (le : rank ≤ Double.infinityRank)
  deriving DecidableEq

namespace Double

/-- The double of a given sign and rank; every rank beyond infinity means infinity. -/
def ofRank (negative : Bool) (rank : Nat) : Double :=
  .signed negative (min rank infinityRank) (Nat.min_le_right ..)

def zero : Double := ofRank false 0

def infinite (negative : Bool) : Double := ofRank negative infinityRank

/-- How many of the smallest positive double make one. -/
def unitsPerOne : Nat := Nat.pow 2 1074

/-- The value of a rank in units of the smallest positive double. The first binade is spaced
by one unit, and so is the second; each later one doubles the spacing. Infinity counts as the
value that would follow the largest finite double. -/
def units (rank : Nat) : Nat :=
  let binade := Nat.pow 2 52
  if rank / binade = 0 then rank
  else (binade + rank % binade) * Nat.pow 2 (rank / binade - 1)

def isNaN : Double → Bool
  | .nan => true
  | .signed .. => false

def isNegative : Double → Bool
  | .nan => false
  | .signed negative .. => negative

/-- The place of a number on the line: its rank, counted downwards on the negative side. Both
zeros stand at 0, and what is no number stands nowhere. -/
def order : Double → Option Int
  | .nan => none
  | .signed negative rank _ => some (if negative then -(rank : Int) else rank)

/-- Two numbers compared by their places; whatever is no number is related to nothing. -/
def compareBy (holds : Int → Int → Bool) (x y : Double) : Bool :=
  match x.order, y.order with
  | some a, some b => holds a b
  | _, _ => false

def equal : Double → Double → Bool := compareBy fun a b => a == b

def less : Double → Double → Bool := compareBy fun a b => a < b

def atMost : Double → Double → Bool := compareBy fun a b => a ≤ b

def isZero (x : Double) : Bool := x.order == some 0

/-- The number without the part after its point, and without its sign. -/
def wholePart : Double → Nat
  | .nan => 0
  | .signed _ rank _ => units rank / unitsPerOne

/-- Whether the number is finite and has nothing after its point. -/
def isWhole : Double → Bool
  | .nan => false
  | .signed _ rank _ => rank < infinityRank && units rank % unitsPerOne == 0

/-- The number that a 64-bit interchange word stands for: a sign bit above a rank. -/
def ofBits (word : Nat) : Double :=
  if le : word % Nat.pow 2 63 ≤ infinityRank then
    .signed (word / Nat.pow 2 63 % 2 == 1) (word % Nat.pow 2 63) le
  else .nan

/-- The interchange word of a number; what is no number has one word here. -/
def toBits : Double → Nat
  | .nan => 0x7ff8000000000000
  | .signed negative rank _ => (if negative then Nat.pow 2 63 else 0) + rank

end Double
end SmallLisp
