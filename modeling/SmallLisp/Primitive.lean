/-
# The primitives

The thirteen functions that every session starts with, and their names: four that fold a row of
numbers, five that compare one, and four on lists.

Key definitions: `Primitive`, `Primitive.all`, `Primitive.name`, `Primitive.ofName?`.
-/
namespace SmallLisp

/-- An operation on two numbers. -/
inductive Arithmetic where
  | add | sub | mul | div
  deriving DecidableEq

/-- An order relation between two numbers. -/
inductive Relation where
  | equal | greater | less | atLeast | atMost
  deriving DecidableEq

/-- A function of the language itself. -/
inductive Primitive where
  | fold (op : Arithmetic)
  | compare (relation : Relation)
  | list
  | car
  | cdr
  | nth
  deriving DecidableEq

namespace Primitive

def name : Primitive → String
  | .fold .add => "+"
  | .fold .sub => "-"
  | .fold .mul => "*"
  | .fold .div => "/"
  | .compare .equal => "="
  | .compare .greater => ">"
  | .compare .less => "<"
  | .compare .atLeast => ">="
  | .compare .atMost => "<="
  | .list => "list"
  | .car => "car"
  | .cdr => "cdr"
  | .nth => "nth"

/-- The primitives in the order in which a session binds them. -/
def all : List Primitive :=
  [.fold .add, .fold .sub, .fold .mul, .fold .div, .compare .equal, .compare .greater,
   .compare .less, .compare .atLeast, .compare .atMost, .list, .car, .cdr, .nth]

def ofName? (name : String) : Option Primitive := all.find? (·.name == name)

end Primitive
end SmallLisp
