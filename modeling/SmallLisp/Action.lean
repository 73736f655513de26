/-
# Actions

An action is a computation in a chain of frames. It ends with a value or a failure, and whichever
it is, it leaves the chain as it has made it, the lines it has written and the notes it has taken.
After a failure nothing more is done.

Key definitions: `Action`, `Run`, `Action.within` (a frame that lasts as long as an action).
-/
import SmallLisp.Chain
import SmallLisp.Failure

namespace SmallLisp

/-- What an action notes down for its observers, besides the lines it writes. -/
inductive Note where
  /-- A script is about to be read. -/
  | loading (path : String)
  /-- All forms of a text are evaluated. -/
  | evaluated (forms : Nat)
  deriving DecidableEq

/-- All that an action leaves behind. -/
structure Run (α : Type) where
  outcome : Except Failure α
  chain : Chain
  lines : List String
  notes : List Note

/-- A computation in a chain of frames. -/
def Action (α : Type) : Type := Chain → Run α

namespace Action

/-- The action that only has a value. -/
protected def pure {α : Type} (a : α) : Action α := fun c => ⟨.ok a, c, [], []⟩

/-- One action after another, unless the first one fails. -/
protected def bind {α β : Type} (m : Action α) (next : α → Action β) : Action β := fun c =>
  match m c with
  | ⟨.error failure, c', lines, notes⟩ => ⟨.error failure, c', lines, notes⟩
  | ⟨.ok a, c', lines, notes⟩ =>
    let after := next a c'
    { after with lines := lines ++ after.lines, notes := notes ++ after.notes }

instance : Monad Action where
  pure := Action.pure
  bind := Action.bind

def fail {α : Type} (failure : Failure) : Action α := fun c => ⟨.error failure, c, [], []⟩

/-- Fails with an error of the language. -/
def raise {α : Type} (e : LispError) : Action α := fail (.error e)

/-- The value of what may be an error instead. -/
def ofExcept {α : Type} : Except LispError α → Action α
  | .ok a => pure a
  | .error e => raise e

/-- The value that a name is bound to. -/
def lookup (name : String) : Action Value := fun c =>
  match c.lookup? name with
  | some v => ⟨.ok v, c, [], []⟩
  | none => ⟨.error (.error (.unbound name)), c, [], []⟩

/-- Binds a name in the innermost frame. -/
def define (name : String) (value : Value) : Action Unit := fun c =>
  ⟨.ok (), c.define name value, [], []⟩

/-- The innermost frame. -/
def frame : Action Frame := fun c => ⟨.ok c.inner, c, [], []⟩

def writeLines (lines : List String) : Action Unit := fun c => ⟨.ok (), c, lines, []⟩

def writeLine (line : String) : Action Unit := writeLines [line]

def note (n : Note) : Action Unit := fun c => ⟨.ok (), c, [], [n]⟩

/-- An action in a new innermost frame, which is gone afterwards. -/
def within {α : Type} (f : Frame) (m : Action α) : Action α := fun c =>
  let after := m (c.push f)
  { after with chain := after.chain.pop }

end Action
end SmallLisp
