/-
# Evaluation

What expressions mean. An atom is its own value, a symbol has the value it is bound to, and a list
is a call: of a special form, which is told by the symbol at its head and by nothing else, or of
the function that its head evaluates to. Arguments are evaluated from left to right in the frame of
the call. A closure's body runs in a new frame inside that same frame, so that its free names mean
what they mean where it is called.

Evaluation inside evaluation is limited in depth: `evaluate scripts nesting limit` gives the
meaning of an expression by at most `limit` evaluations inside each other, and fails with an
exhausted stack where more are needed.

Key definitions: `SpecialForm`, `Evaluation.step` (one evaluation, given how to do those inside
it), `Evaluation.evaluate`, `Evaluation.runForms` (the forms of a text, read one by one).
-/
import SmallLisp.Action
import SmallLisp.Form
import SmallLisp.Primitive.Apply

namespace SmallLisp

/-- Where `load` finds scripts: the text at a path, or why there is none. -/
abbrev Scripts := String → Except Failure String

/-- The scripts of a table from paths to texts. -/
def Scripts.ofList (table : List (String × String)) : Scripts := fun path =>
  match table.lookup path with
  | some text => .ok text
  | none => .error (.error (.unreadable (.unknown path)))

/-- The forms with rules of evaluation of their own. -/
inductive SpecialForm where
  | branch
  | define
  | lambda
  | load
  | bindings
  | print
  deriving DecidableEq

namespace SpecialForm

def name : SpecialForm → String
  | .branch => "if"
  | .define => "let"
  | .lambda => "fn"
  | .load => "load"
  | .bindings => "env"
  | .print => "print"

def all : List SpecialForm := [.branch, .define, .lambda, .load, .bindings, .print]

/-- The special form that a list with this head is. -/
def ofHead? : Value → Option SpecialForm
  | .sym s => all.find? (·.name == s)
  | _ => none

end SpecialForm

namespace Evaluation

/-- The values of expressions, evaluated in order. -/
def evalAll (eval : Value → Action Value) : List Value → Action (List Value)
  | [] => pure []
  | e :: es => do
    let v ← eval e
    let vs ← evalAll eval es
    pure (v :: vs)

/-- Expressions evaluated in order for the value of the last, or a given value if there are
none. -/
def evalLast (eval : Value → Action Value) : Value → List Value → Action Value
  | last, [] => pure last
  | _, e :: es => do
    let v ← eval e
    evalLast eval v es

/-- The names in a list of symbols. -/
def symbolNames : List Value → Except LispError (List String)
  | [] => .ok []
  | .sym name :: rest => (symbolNames rest).map (name :: ·)
  | _ :: _ => .error .paramNotASymbol

/-- The parameters of a closure, which are checked when it is called. -/
def formals : Value → Except LispError (List String)
  | .list params => symbolNames params
  | _ => .error .paramsNotAList

/-- A closure called with argument expressions. Nothing is evaluated before their number is known
to be right. Of parameters with the same name the last one counts. -/
def callClosure (eval : Value → Action Value) (params : Value) (body args : List Value) :
    Action Value := do
  let names ← .ofExcept (formals params)
  if names.length = args.length then do
    let values ← evalAll eval args
    .within (.ofList (names.zip values)) (evalLast eval .nil body)
  else .raise (.closureArity names.length args.length)

/-- A function called with argument expressions. -/
def call (eval : Value → Action Value) (head : Value) (args : List Value) : Action Value :=
  match head with
  | .prim p => do
    let values ← evalAll eval args
    .ofExcept (p.apply values)
  | .closure params body => callClosure eval params body args
  | _ => .raise (.notAFunction head)

/-- `(if condition then else)`: the branch that the condition chooses. A branch may be missing if
the other one is chosen. -/
def evalBranch (eval : Value → Action Value) (args : List Value) : Action Value :=
  match args with
  | [] => .raise .conditionMissing
  | condition :: branches =>
    if 2 < branches.length then .raise (.tooManyBranches args.length)
    else do
      match ← eval condition with
      | .bool b =>
        let index := if b then 0 else 1
        match branches[index]? with
        | some branch => eval branch
        | none => .raise (.branchMissing (index + 1) args.length)
      | _ => .raise (.conditionNotABool condition)

/-- `(let name value)`: binds a symbol in the innermost frame, once it has a value. -/
def evalDefine (eval : Value → Action Value) : List Value → Action Value
  | [.sym name, e] => do
    let v ← eval e
    .define name v
    pure (.sym name)
  | [_, _] => .raise .targetNotASymbol
  | args => .raise (.defineArity args.length)

/-- `(fn params body...)`: a closure, with its parts as written. -/
def evalLambda : List Value → Action Value
  | params :: form :: body => pure (.closure params (form :: body))
  | args => .raise (.lambdaArity args.length)

/-- `(print x)`: writes what a symbol is bound to, or anything else as it is, not evaluated. -/
def evalPrint : List Value → Action Value
  | [.sym name] => do
    let v ← .lookup name
    .writeLine v.render
    pure v
  | [v] => do
    .writeLine v.render
    pure v
  | args => .raise (.printArity args.length)

/-- `(env)`: writes the bindings of the innermost frame by name. -/
def evalBindings : List Value → Action Value
  | [] => do
    let f ← .frame
    .writeLines (f.sorted.map fun (name, v) => name ++ ": " ++ v.render)
    pure .nil
  | args => .raise (.bindingsArity args.length)

/-- The forms of a row of tokens, each read and then evaluated before the next one is read; the
value of the last one, or the value before if there are none. `done` counts the forms before. -/
def runForms (nesting : Nat) (eval : Value → Action Value) (before : Value) (done : Nat)
    (tokens : List Token) : Action Value :=
  match tokens with
  | [] => do
    .note (.evaluated done)
    pure before
  | t :: ts =>
    match _h : Form.parse nesting (t :: ts) with
    | .error fault => .fail fault.toFailure
    | .ok (form, rest) => do
      let v ← eval form
      runForms nesting eval v (done + 1) rest
termination_by tokens.length
decreasing_by exact Form.length_parse_lt _h

/-- The forms of tokens evaluated for the value of the last, or `nil`. -/
def runTokens (nesting : Nat) (eval : Value → Action Value) (tokens : List Token) : Action Value :=
  runForms nesting eval .nil 0 tokens

/-- The forms of a text evaluated for the value of the last. A text of no token is an error. -/
def evalText (nesting : Nat) (eval : Value → Action Value) (text : String) : Action Value :=
  match tokenize text with
  | [] => .raise .noToken
  | t :: ts => runTokens nesting eval (t :: ts)

/-- The text of a script. -/
def readScript (scripts : Scripts) (path : String) : Action String := do
  .note (.loading path)
  match scripts path with
  | .ok text => pure text
  | .error failure => .fail failure

/-- A script run in the chain at hand. -/
def loadScript (scripts : Scripts) (nesting : Nat) (eval : Value → Action Value) (path : String) :
    Action Value := do
  let text ← readScript scripts path
  runTokens nesting eval (tokenize text)

/-- `(load path)`: runs a script as if its forms stood here. -/
def evalLoad (scripts : Scripts) (nesting : Nat) (eval : Value → Action Value) :
    List Value → Action Value
  | [e] => do
    match ← eval e with
    | .str path => loadScript scripts nesting eval path
    | _ => .raise .pathNotAText
  | args => .raise (.loadArity args.length)

def evalSpecial (scripts : Scripts) (nesting : Nat) (eval : Value → Action Value) :
    SpecialForm → List Value → Action Value
  | .branch, args => evalBranch eval args
  | .define, args => evalDefine eval args
  | .lambda, args => evalLambda args
  | .load, args => evalLoad scripts nesting eval args
  | .bindings, args => evalBindings args
  | .print, args => evalPrint args

/-- One evaluation, given how to do the evaluations inside it. -/
def step (scripts : Scripts) (nesting : Nat) (eval : Value → Action Value) : Value → Action Value
  | .list [] => .raise .emptyCall
  | .list (head :: args) =>
    match SpecialForm.ofHead? head with
    | some form => evalSpecial scripts nesting eval form args
    | none => do
      let f ← eval head
      call eval f args
  | .sym name => .lookup name
  | .prim _ => .raise .functionAsForm
  | .closure .. => .raise .functionAsForm
  | v => pure v

/-- The meaning of an expression by at most `limit` evaluations inside each other. -/
def evaluate (scripts : Scripts) (nesting : Nat) : Nat → Value → Action Value
  | 0 => fun _ => .fail .stackExhausted
  | limit + 1 => step scripts nesting (evaluate scripts nesting limit)

end Evaluation
end SmallLisp
