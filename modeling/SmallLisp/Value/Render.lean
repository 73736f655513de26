/-
# Rendered values

How a value is shown to its user: what `print` writes, what `env` lists and what a session answers.
Texts appear without quotes and whole numbers without a point; lists have commas, so a rendering is
not meant to be read back as a form.

Key definitions: `Double.render`, `Value.render`.
-/
import SmallLisp.Decimal.Layout
import SmallLisp.Value

namespace SmallLisp

/-- The text of a number: a whole number in full and without a point, whatever its size and
without the sign of a zero; any other finite number as its shortest decimal. -/
def Double.render (x : Double) : String :=
  if x.isNaN then "NaN"
  else if x.isWhole then
    (if x.isNegative && x.wholePart != 0 then "-" else "") ++ toString x.wholePart
  else String.ofList (x.write .plain)

namespace Value

mutual

/-- The text of a value. -/
def render : Value → String
  | .nil => "nil"
  | .bool true => "true"
  | .bool false => "false"
  | .num x => x.render
  | .str text => text
  | .sym name => name
  | .list items => "(" ++ ",".intercalate (renderEach items) ++ ")"
  | .prim _ => "Function"
  | .closure .. => "Lambda"

/-- The texts of the values of a list. -/
def renderEach : List Value → List String
  | [] => []
  | v :: vs => v.render :: renderEach vs

end

end Value
end SmallLisp
