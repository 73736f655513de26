/-
# Decimal numerals

The texts that denote a number: an optional sign, then digits with an optional point among
them or at either end and an optional power of ten, or one of the words `inf`, `infinity` and
`nan` in any case. Digits of every script count; blanks around a numeral do not, except for the
information separators U+001C to U+001F, which are blank elsewhere. A numeral denotes the double
nearest to its exact value.

Key definitions: `Numeral.read?`, `Numeral.value`.
-/
import SmallLisp.Double.Nearest
import SmallLisp.Text.Blank
import SmallLisp.Text.DecimalDigit

namespace SmallLisp

/-- A numeral made of digits: a sign, the digits before and after the point, and the power of
ten that the last digit counts. -/
structure Numeral where
  negative : Bool
  digits : List Nat
  exponent : Int

/-- The double nearest to `coefficient * 10 ^ exponent`. -/
def Double.ofDecimal (negative : Bool) (coefficient : Nat) : Int → Double
  | .ofNat e => ofRatio negative (coefficient * Nat.pow 10 e) 1
  | .negSucc e => ofRatio negative coefficient (Nat.pow 10 (e + 1))

namespace Numeral

/-- The number that a row of digits denotes, the first digit counting most. -/
def ofDigits (digits : List Nat) : Nat :=
  digits.foldl (fun n d => 10 * n + d) 0

/-- The double nearest to the numeral. Doubles lie between `10 ^ -400` and `10 ^ 400`, so a
power of ten far outside gives infinity or zero whatever the digits. -/
def value (x : Numeral) : Double :=
  let coefficient := ofDigits x.digits
  if coefficient = 0 then .ofRank x.negative 0
  else if 400 < x.exponent then .infinite x.negative
  else if x.exponent + x.digits.length < -400 then .ofRank x.negative 0
  else .ofDecimal x.negative coefficient x.exponent

/-- An optional sign and what follows it; the sign is true for minus. -/
def takeSign : List Char → Bool × List Char
  | '-' :: cs => (true, cs)
  | '+' :: cs => (false, cs)
  | cs => (false, cs)

/-- The longest row of digits at the start, and what follows it. -/
def takeDigits : List Char → List Nat × List Char
  | [] => ([], [])
  | c :: cs =>
    match Text.digit? c with
    | some d => (d :: (takeDigits cs).1, (takeDigits cs).2)
    | none => ([], c :: cs)

/-- The digits after a point, if there is one, and what follows them. -/
def takeFraction : List Char → List Nat × List Char
  | '.' :: cs => takeDigits cs
  | cs => ([], cs)

/-- The power of ten that ends a numeral: nothing, or `e`, an optional sign and digits. -/
def exponent? : List Char → Option Int
  | [] => some 0
  | c :: cs =>
    if c = 'e' ∨ c = 'E' then
      match takeDigits (takeSign cs).2 with
      | (d :: ds, []) =>
        some (if (takeSign cs).1 then -(ofDigits (d :: ds) : Int) else ofDigits (d :: ds))
      | _ => none
    else none

/-- A numeral of digits without its sign. -/
def ofUnsigned? (negative : Bool) (cs : List Char) : Option Numeral :=
  let (before, rest) := takeDigits cs
  let (after, rest) := takeFraction rest
  match before ++ after with
  | [] => none
  | d :: ds => (exponent? rest).map fun e => ⟨negative, d :: ds, e - after.length⟩

/-- The words for what digits cannot write. -/
def ofWord? (negative : Bool) (cs : List Char) : Option Double :=
  let word := String.ofList (cs.map Char.toLower)
  if word = "inf" ∨ word = "infinity" then some (.infinite negative)
  else if word = "nan" then some .nan
  else none

/-- The blanks that may surround a numeral. -/
def isPadding (c : Char) : Bool :=
  Text.isBlank c && !(0x1c ≤ c.toNat && c.toNat ≤ 0x1f)

/-- The double that a text denotes, if it is a numeral. -/
def read? (cs : List Char) : Option Double :=
  let (negative, body) := takeSign (Text.trimBy isPadding cs)
  match ofWord? negative body with
  | some x => some x
  | none => (ofUnsigned? negative body).map value

end Numeral
end SmallLisp
