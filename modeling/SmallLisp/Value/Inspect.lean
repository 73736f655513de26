/-
# Inspected values

A second text of values, for looking into them: it keeps apart what `Value.render` shows alike.
Texts and the names of symbols are quoted, numbers keep a point or an exponent, and a closure is
written out with its parameters and body.

Key definitions: `Value.inspect`, `Value.label`.
-/
import SmallLisp.Decimal.Layout
import SmallLisp.Text.Quoted
import SmallLisp.Value

namespace SmallLisp
namespace Value

mutual

/-- The text of a value that shows what it is. -/
def inspect : Value → String
  | .nil => "nil"
  | .bool true => "True"
  | .bool false => "False"
  | .num x => String.ofList (x.write .plain)
  | .str text => Text.quote text
  | .sym name => "Symbol(" ++ Text.quote name ++ ")"
  | .list items => "[" ++ ", ".intercalate (inspectEach items) ++ "]"
  | .prim p => "<builtin " ++ p.name ++ ">"
  | .closure params body =>
    "(fn " ++ " ".intercalate (params.inspect :: inspectEach body) ++ ")"

/-- The inspected texts of the values of a list. -/
def inspectEach : List Value → List String
  | [] => []
  | v :: vs => v.inspect :: inspectEach vs

end

/-- The name that a value goes by when it is looked up: symbols and texts as they are, and
everything else as inspected. -/
def label : Value → String
  | .str text => text
  | .sym name => name
  | v => v.inspect

end Value
end SmallLisp
