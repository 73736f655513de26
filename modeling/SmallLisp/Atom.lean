/-
# Atoms

What a single token means when it is no parenthesis: one of the words `true`, `false` and `nil`,
a numeral, a text between double quotes, and failing all of these a symbol.

Key definitions: `Value.ofToken`, `Token.quotedText?`.
-/
import SmallLisp.Decimal.Numeral
import SmallLisp.Token
import SmallLisp.Value

namespace SmallLisp

/-- What stands between the double quotes that a token begins and ends with. -/
def Token.quotedText? : List Char → Option (List Char)
  | '"' :: cs => if cs.getLast? = some '"' then some cs.dropLast else none
  | _ => none

/-- The atom that a token is. -/
def Value.ofToken (t : Token) : Value :=
  if t = "true" then .bool true
  else if t = "false" then .bool false
  else if t = "nil" then .nil
  else
    match Numeral.read? t.toList with
    | some x => .num x
    | none =>
      match Token.quotedText? t.toList with
      | some text => .str (String.ofList text)
      | none => .sym t

end SmallLisp
