/-
# Paths

Names of files, taken apart at their slashes. Empty components and single dots mean nothing and are
dropped; double dots are kept, as what they lead back from may be a link. A path starts at the
root, at a second root that exactly two slashes stand for, or anywhere.

Key definitions: `Path`, `Path.ofString`, `Path.text`, `Path.join`.
-/
import SmallLisp.Text.Blank

namespace SmallLisp

/-- Where a path starts. -/
inductive Path.Anchor where
  | relative
  | root
  | doubleRoot
  deriving DecidableEq

structure Path where
  anchor : Path.Anchor
  parts : List String
  deriving DecidableEq

namespace Path

/-- Where a text with a number of slashes in front starts. -/
def Anchor.ofSlashes : Nat → Anchor
  | 0 => .relative
  | 2 => .doubleRoot
  | _ => .root

def Anchor.text : Anchor → String
  | .relative => ""
  | .root => "/"
  | .doubleRoot => "//"

def ofString (s : String) : Path :=
  ⟨.ofSlashes (s.toList.takeWhile (· == '/')).length,
    ((Text.fields '/' s.toList).map String.ofList).filter fun part => part != "" && part != "."⟩

/-- The text of a path; one without any component is a dot. -/
def text (p : Path) : String :=
  if p.anchor = .relative ∧ p.parts.isEmpty then "."
  else p.anchor.text ++ "/".intercalate p.parts

def isAbsolute (p : Path) : Bool := p.anchor != .relative

/-- A path as seen from a directory; one that starts at a root is seen from everywhere. -/
def join (directory p : Path) : Path :=
  if p.isAbsolute then p else ⟨directory.anchor, directory.parts ++ p.parts⟩

def hasNul (p : Path) : Bool := p.parts.any (·.toList.contains '\x00')

end Path
end SmallLisp
