/-
# Values

What expressions are made of and what they evaluate to. Code and data are the same type: a form
read from a text is a value, and evaluation takes values to values. A closure keeps its parameter
list and its body as written and captures no bindings.

Key definitions: `Value`.
-/
import SmallLisp.Double
import SmallLisp.Primitive

namespace SmallLisp

/-- A value of the language, and equally an expression of it. -/
inductive Value where
  | nil
  | bool (b : Bool)
  | num (x : Double)
  | str (text : String)
  | sym (name : String)
  | list (items : List Value)
  | prim (p : Primitive)
  | closure (params : Value) (body : List Value)

end SmallLisp
