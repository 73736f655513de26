/-
# Blank characters and the words between them

The characters that separate words: the ASCII spacing and separator controls, the space, and
the spaces and line ends of the rest of Unicode. `words` cuts a text at its blanks, and
`trim` takes the blanks off both ends.

Key definitions: `Text.isBlank`, `Text.words`, `Text.trimBy`, `Text.allBlank`.
-/
namespace SmallLisp
namespace Text

/-- A blank character: one of U+0009 to U+000D, U+001C to U+0020, or one of the nineteen
spaces and line ends beyond ASCII. -/
def isBlank (c : Char) : Bool :=
  let n := c.toNat
  (0x09 ≤ n && n ≤ 0x0d) || (0x1c ≤ n && n ≤ 0x20) || n == 0x85 || n == 0xa0 || n == 0x1680 ||
    (0x2000 ≤ n && n ≤ 0x200a) || n == 0x2028 || n == 0x2029 || n == 0x202f || n == 0x205f ||
    n == 0x3000

/-- The word read so far, given last character first, if there is one. -/
def pendingWord : List Char → List (List Char)
  | [] => []
  | c :: cs => [(c :: cs).reverse]

/-- The words of a text whose first characters, given last first, are already read. -/
def wordsAfter : List Char → List Char → List (List Char)
  | pending, [] => pendingWord pending
  | pending, c :: cs =>
    if isBlank c then pendingWord pending ++ wordsAfter [] cs
    else wordsAfter (c :: pending) cs

/-- The maximal runs of characters that are not blank, in order. -/
def words (cs : List Char) : List (List Char) := wordsAfter [] cs

/-- The text without the characters of a class at either end. -/
def trimBy (p : Char → Bool) (cs : List Char) : List Char :=
  ((cs.dropWhile p).reverse.dropWhile p).reverse

def trim (cs : List Char) : List Char := trimBy isBlank cs

def allBlank (cs : List Char) : Bool := cs.all isBlank

/-- The fields of a text between the occurrences of a separator, empty ones included. -/
def fields (separator : Char) : List Char → List (List Char)
  | [] => [[]]
  | c :: cs =>
    if c = separator then [] :: fields separator cs
    else
      match fields separator cs with
      | [] => [[c]]
      | f :: fs => (c :: f) :: fs

end Text
end SmallLisp
