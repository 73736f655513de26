/-
# Quoted text

Text between quotes, on one line and with every character visible. The quote is `'`, or `"` for a
text that holds `'` and no `"`; the quote itself and the backslash are written after a backslash,
line feed, carriage return and tab as `\n`, `\r` and `\t`, and each other character that is not
printable as its code point in hexadecimal, with two, four or eight digits.

Key definitions: `Text.quote`, `Text.hexDigits`.
-/
import SmallLisp.Text.Printable

namespace SmallLisp
namespace Text

/-- A number in hexadecimal, with zeros in front up to a width. -/
def hexDigits (width n : Nat) : List Char :=
  let digits := Nat.toDigits 16 n
  List.replicate (width - digits.length) '0' ++ digits

/-- The mark that a text is quoted with. -/
def quoteMark (cs : List Char) : Char :=
  if cs.contains '\'' && !cs.contains '"' then '"' else '\''

/-- One character of a quoted text. -/
def quoteChar (mark c : Char) : List Char :=
  if c = mark ∨ c = '\\' then ['\\', c]
  else if c = '\n' then ['\\', 'n']
  else if c = '\r' then ['\\', 'r']
  else if c = '\t' then ['\\', 't']
  else if isPrintable c then [c]
  else if c.toNat < 0x100 then '\\' :: 'x' :: hexDigits 2 c.toNat
  else if c.toNat < 0x10000 then '\\' :: 'u' :: hexDigits 4 c.toNat
  else '\\' :: 'U' :: hexDigits 8 c.toNat

/-- A text between quotes. -/
def quote (s : String) : String :=
  let mark := quoteMark s.toList
  String.ofList (mark :: s.toList.flatMap (quoteChar mark) ++ [mark])

end Text
end SmallLisp
