/-
# Chains of frames

Where a name is looked up: an innermost frame, and the frames around it from the inside out. A
name means what the innermost frame that binds it says. Definitions are made in the innermost
frame only.

Key definitions: `Chain`, `Chain.lookup?`, `Chain.define`, `Chain.push`, `Chain.pop`.
-/
import SmallLisp.Frame

namespace SmallLisp

/-- A frame and the frames around it, innermost first. -/
structure Chain where
  inner : Frame
  outer : List Frame

namespace Chain

/-- The chain of a single frame. -/
def ofFrame (f : Frame) : Chain := ⟨f, []⟩

def frames (c : Chain) : List Frame := c.inner :: c.outer

/-- The value that a name has in the innermost frame binding it. -/
def lookup? (c : Chain) (name : String) : Option Value :=
  c.frames.findSome? (·.get? name)

/-- The chain with a name bound in its innermost frame. -/
def define (c : Chain) (name : String) (value : Value) : Chain :=
  { c with inner := c.inner.define name value }

/-- The chain with a new innermost frame. -/
def push (f : Frame) (c : Chain) : Chain := ⟨f, c.frames⟩

/-- The chain without its innermost frame; a single frame stays. -/
def pop (c : Chain) : Chain :=
  match c.outer with
  | [] => c
  | f :: fs => ⟨f, fs⟩

end Chain
end SmallLisp
