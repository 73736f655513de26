/-
# What the primitives do

A primitive takes the values of its arguments to a value or to an error. The folds and the
comparisons want numbers, all of them, and at least one; a comparison holds if it holds between
neighbours. The list primitives first count their arguments and then look at them.

Key definitions: `Primitive.apply`, `Double.index?`.
-/
import SmallLisp.Double.Arithmetic
import SmallLisp.Failure

namespace SmallLisp

def Arithmetic.apply : Arithmetic → Double → Double → Double
  | .add => .add
  | .sub => .sub
  | .mul => .mul
  | .div => .div

/-- Whether a relation holds between two numbers; none holds of what is no number. -/
def Relation.holds : Relation → Double → Double → Bool
  | .equal, x, y => x.equal y
  | .greater, x, y => y.less x
  | .less, x, y => x.less y
  | .atLeast, x, y => y.atMost x
  | .atMost, x, y => x.atMost y

/-- The place in a list that a number means: its whole part, or the first place if it is negative
or no number. Infinity is beyond every place. -/
def Double.index? : Double → Option Nat
  | .nan => some 0
  | .signed true .. => some 0
  | .signed false rank le =>
    if rank < infinityRank then some (wholePart (.signed false rank le)) else none

namespace Primitive

/-- The numbers that values are, if all are. -/
def numbers : List Value → Except LispError (List Double)
  | [] => .ok []
  | .num x :: vs => (numbers vs).map (x :: ·)
  | _ :: _ => .error .notANumber

/-- The items of a list. -/
def items : Value → Except LispError (List Value)
  | .list vs => .ok vs
  | _ => .error .notAList

/-- A single number. -/
def number : Value → Except LispError Double
  | .num x => .ok x
  | _ => .error .notANumber

/-- An operation folded over numbers from the left. A quotient of nothing by something is refused,
whatever follows. -/
def foldNumbers (op : Arithmetic) : List Double → Except LispError Double
  | [] => .error (.noOperand (.fold op))
  | x :: xs =>
    if op = .div ∧ x.isZero then .error .divisionByZero else .ok (xs.foldl op.apply x)

/-- Whether a relation holds between each number and the next. -/
def chained (holds : Double → Double → Bool) : List Double → Bool
  | x :: y :: rest => holds x y && chained holds (y :: rest)
  | _ => true

def compareNumbers (relation : Relation) : List Double → Except LispError Bool
  | [] => .error (.noOperand (.compare relation))
  | xs => .ok (chained relation.holds xs)

def applyCar : List Value → Except LispError Value
  | [v] => do
    match ← items v with
    | [] => .error .carOfEmptyList
    | first :: _ => .ok first
  | args => .error (.primitiveArity .car 1 args.length)

/-- The items after the first; where none are left the answer is no list but `nil`. -/
def applyCdr : List Value → Except LispError Value
  | [v] => do
    match (← items v).tail with
    | [] => .ok .nil
    | rest => .ok (.list rest)
  | args => .error (.primitiveArity .cdr 1 args.length)

/-- The item at a place, or `nil` beyond the last. -/
def applyNth : List Value → Except LispError Value
  | [place, v] => do
    let vs ← items v
    let x ← number place
    .ok ((x.index?.bind (vs[·]?)).getD .nil)
  | args => .error (.primitiveArity .nth 2 args.length)

/-- The value of a primitive on the values of its arguments. -/
def apply : Primitive → List Value → Except LispError Value
  | .fold op, args => do
    let xs ← numbers args
    let x ← foldNumbers op xs
    .ok (.num x)
  | .compare relation, args => do
    let xs ← numbers args
    let b ← compareNumbers relation xs
    .ok (.bool b)
  | .list, args => .ok (.list args)
  | .car, args => applyCar args
  | .cdr, args => applyCdr args
  | .nth, args => applyNth args

end Primitive
end SmallLisp
