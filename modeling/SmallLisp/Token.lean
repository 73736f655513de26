/-
# Tokens

A text is cut into tokens: the two parentheses, and the words between them and the blanks. A quote
right before a parenthesis opens a call of `list`; anywhere else a quote is a character like any
other, and so is `"`: a text with blanks in it is several tokens.

Key definitions: `Token`, `tokenize`.
-/
import SmallLisp.Text.Blank

namespace SmallLisp

abbrev Token := String

namespace Token

/-- The text with each quoted parenthesis written out as the start of a call of `list`. -/
def expandQuotes : List Char → List Char
  | [] => []
  | '\'' :: '(' :: cs => ' ' :: '(' :: ' ' :: 'l' :: 'i' :: 's' :: 't' :: ' ' :: expandQuotes cs
  | c :: cs => c :: expandQuotes cs

/-- The text with spaces around each parenthesis. -/
def spaceOut (cs : List Char) : List Char :=
  cs.flatMap fun c => if c = '(' ∨ c = ')' then [' ', c, ' '] else [c]

end Token

/-- The tokens of a text. -/
def tokenize (text : String) : List Token :=
  (Text.words (Token.spaceOut (Token.expandQuotes text.toList))).map String.ofList

end SmallLisp
