/-
# Sessions

A session is a root frame that lives on from text to text: what one text binds the next one sees,
also if the first one failed half-way. A text of no token at all is an error when it is evaluated
and nothing when it is loaded.

Key definitions: `Session`, `Session.eval`, `Session.load`, `Session.answer`.
-/
import SmallLisp.Evaluation

namespace SmallLisp

/-- How deep evaluations and the lists of a text may be nested. -/
structure Limits where
  calls : Nat
  nesting : Nat

def Limits.standard : Limits := ⟨1000, 1000⟩

/-- What a session runs in: where it finds scripts, and its limits. -/
structure Setup where
  scripts : Scripts
  limits : Limits

/-- The root frame of a session. -/
structure Session where
  root : Frame

/-- What a session answers to a text, and the session afterwards. -/
structure Reply (α : Type) where
  outcome : α
  session : Session
  lines : List String
  notes : List Note

namespace Setup

/-- The meaning of an expression under the limits of a setup. -/
def evaluate (setup : Setup) (e : Value) : Action Value :=
  Evaluation.evaluate setup.scripts setup.limits.nesting setup.limits.calls e

/-- The forms of a text evaluated one after another, for the value of the last. -/
def evalText (setup : Setup) (text : String) : Action Value :=
  Evaluation.evalText setup.limits.nesting setup.evaluate text

/-- The forms of a script evaluated one after another. -/
def loadScript (setup : Setup) (path : String) : Action Value :=
  Evaluation.loadScript setup.scripts setup.limits.nesting setup.evaluate path

end Setup

/-- The mark before the value of a text. -/
def successMark : String := "// 🔥 => "

/-- The mark before an error. -/
def errorMark : String := "// 🙀 => "

def Value.successLine (v : Value) : String := successMark ++ v.render

def LispError.line (e : LispError) : String := errorMark ++ e.message

namespace Session

def fresh : Session := ⟨.primitives⟩

/-- An action run at the root of a session. -/
def run {α : Type} (s : Session) (m : Action α) : Reply (Except Failure α) :=
  let after := m (.ofFrame s.root)
  ⟨after.outcome, ⟨after.chain.inner⟩, after.lines, after.notes⟩

def eval (setup : Setup) (s : Session) (text : String) : Reply (Except Failure Value) :=
  s.run (setup.evalText text)

def load (setup : Setup) (s : Session) (path : String) : Reply (Except Failure Value) :=
  s.run (setup.loadScript path)

/-- The line that shows how an evaluation ended. A fault of the surroundings has none. -/
def outcomeLine : Except Failure Value → Except HostFault String
  | .ok v => .ok v.successLine
  | .error (.error e) => .ok e.line
  | .error .stackExhausted => .ok (errorMark ++ Failure.stackExhausted.message)
  | .error (.host fault) => .error fault

/-- A text evaluated for the line that shows how it ended. -/
def answer (setup : Setup) (s : Session) (text : String) : Reply (Except HostFault String) :=
  let reply := s.eval setup text
  { reply with outcome := outcomeLine reply.outcome }

/-- Whether a name is bound to the primitive it belongs to. -/
def isOwnPrimitive : String × Value → Bool
  | (name, .prim p) => p.name == name
  | _ => false

/-- The bindings of a session by name, without the primitives that are still where they were. -/
def bindings (s : Session) : List (String × Value) :=
  s.root.sorted.filter (!isOwnPrimitive ·)

end Session
end SmallLisp
