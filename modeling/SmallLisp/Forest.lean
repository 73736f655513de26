/-
# Forests of frames

Frames that may share the frames around them. Each frame is numbered when it is made, and is made
around no frame or around one that exists already; so the way outwards from a frame goes down in
the numbers and ends. A name is looked up from a frame outwards, so a definition in one frame is
seen from all frames inside it that do not hide it.

Names are given as values here. Only a symbol can be bound; looking up anything else finds nothing.

Key definitions: `Forest`, `Forest.chain`, `Forest.new`, `Forest.define`, `Forest.update`,
`Forest.find?`, `Forest.get?`.
-/
import SmallLisp.Failure
import SmallLisp.Frame
import SmallLisp.Value.Inspect

namespace SmallLisp

/-- A frame of a forest and the number of the frame around it. -/
structure Forest.Node where
  outer : Option Nat
  frame : Frame

/-- Frames, the newest first: the number of a frame is how many are older. -/
structure Forest where
  nodes : List Forest.Node

/-- The name that a value binds or is bound to, if it is a symbol. -/
def Value.symbolName? : Value → Option String
  | .sym name => some name
  | _ => none

namespace Frame

/-- A list of bindings with one more: a symbol that is there already gets the new value in its old
place. -/
def overwrite (entry : Value × Value) : List (Value × Value) → List (Value × Value)
  | [] => [entry]
  | (key, value) :: rest =>
    if key.symbolName?.isSome && key.symbolName? == entry.1.symbolName? then
      (key, entry.2) :: rest
    else (key, value) :: overwrite entry rest

/-- A list of bindings in which no symbol is repeated: each stands where it was first, with the
value that it was last given. -/
def collapse (bindings : List (Value × Value)) : List (Value × Value) :=
  bindings.foldl (fun done entry => overwrite entry done) []

/-- The frame with bindings made up to the first whose name is no symbol, and the error at it. -/
def defineUntil (f : Frame) : List (Value × Value) → Frame × Option LispError
  | [] => (f, none)
  | (.sym name, value) :: rest => (f.define name value).defineUntil rest
  | (key, _) :: _ => (f, some (.notASymbol key))

/-- The frame with several bindings made together. -/
def update (f : Frame) (bindings : List (Value × Value)) : Frame × Option LispError :=
  f.defineUntil (collapse bindings)

/-- The bindings of a frame on one line. -/
def describe (f : Frame) : String :=
  "\x7b" ++ ", ".intercalate (f.entries.map fun (name, value) => name ++ ": " ++ value.render) ++
    "\x7d"

end Frame

namespace Forest

def empty : Forest := ⟨[]⟩

def size (forest : Forest) : Nat := forest.nodes.length

/-- The numbered frames from one outwards. -/
def chainIn : List Node → Nat → List (Nat × Frame)
  | [], _ => []
  | node :: older, i =>
    if i = older.length then
      (i, node.frame) ::
        match node.outer with
        | none => []
        | some j => chainIn older j
    else chainIn older i

/-- The frames that names are looked up in from a frame, the frame itself first. -/
def chain (forest : Forest) (i : Nat) : List (Nat × Frame) := chainIn forest.nodes i

/-- The nodes with the frame of one number changed. -/
def modifyIn (change : Frame → Frame) (i : Nat) : List Node → List Node
  | [] => []
  | node :: older =>
    if i = older.length then { node with frame := change node.frame } :: older
    else node :: modifyIn change i older

def modify (forest : Forest) (i : Nat) (change : Frame → Frame) : Forest :=
  ⟨modifyIn change i forest.nodes⟩

def frame (forest : Forest) (i : Nat) : Frame :=
  match forest.chain i with
  | [] => .empty
  | (_, f) :: _ => f

/-- The forest with one more frame, whose number is the size of the forest before. A binding that
fails makes no frame. -/
def new (forest : Forest) (outer : Option Nat) (bindings : List (Value × Value)) :
    Except LispError Forest :=
  match Frame.empty.update bindings with
  | (f, none) => .ok ⟨⟨outer, f⟩ :: forest.nodes⟩
  | (_, some e) => .error e

/-- The forest with a name bound in one frame. -/
def define (forest : Forest) (i : Nat) (name value : Value) : Except LispError Forest :=
  match name.symbolName? with
  | some n => .ok (forest.modify i (·.define n value))
  | none => .error (.notASymbol name)

/-- The forest with several names bound in one frame; those before a failing one stay bound. -/
def update (forest : Forest) (i : Nat) (bindings : List (Value × Value)) :
    Forest × Option LispError :=
  (forest.modify i fun f => (f.update bindings).1, ((forest.frame i).update bindings).2)

/-- The forest with the primitives bound in one frame. -/
def install (forest : Forest) (i : Nat) : Forest :=
  forest.modify i (·.defineAll Frame.primitives.entries)

/-- The number of the nearest frame, from one outwards, that binds a name, and the name's value
there. -/
def locate? (forest : Forest) (i : Nat) (name : Value) : Option (Nat × Value) :=
  match name.symbolName? with
  | none => none
  | some n => (forest.chain i).findSome? fun (j, f) => (f.get? n).map (j, ·)

def find? (forest : Forest) (i : Nat) (name : Value) : Option Nat :=
  (forest.locate? i name).map Prod.fst

def get? (forest : Forest) (i : Nat) (name : Value) : Option Value :=
  (forest.locate? i name).map Prod.snd

/-- The value of a name, or the error that it has none. -/
def lookup (forest : Forest) (i : Nat) (name : Value) : Except LispError Value :=
  match forest.get? i name with
  | some v => .ok v
  | none => .error (.unbound name.label)

def contains (forest : Forest) (i : Nat) (name : Value) : Bool := (forest.find? i name).isSome

/-- How many frames are around a frame. -/
def depth (forest : Forest) (i : Nat) : Nat := (forest.chain i).length - 1

/-- A frame on one line, with a mark if there is one around it. -/
def describe (forest : Forest) (i : Nat) : String :=
  (forest.frame i).describe ++ if forest.depth i = 0 then "" else " -> ..."

/-- A frame and all around it on one line. -/
def describeChain (forest : Forest) (i : Nat) : String :=
  "<Environment chain: " ++
    " -> ".intercalate ((forest.chain i).map fun (_, f) => f.describe) ++ ">"

end Forest
end SmallLisp
