/-
# Failures

Why a computation has no value. A `LispError` is an error of the language, which a session reports
and survives. A `Failure` is such an error, an exhausted stack, or a fault of the surroundings
that the language has no error for.

Key definitions: `LispError`, `LispError.message`, `LispError.kind`, `LispError.counts?`, `Failure`.
-/
import SmallLisp.SystemError
import SmallLisp.Text.Utf8
import SmallLisp.Value.Render

namespace SmallLisp

/-- Why a script has no text. -/
inductive ReadError where
  /-- A path that a table of scripts does not hold. -/
  | unknown (path : String)
  | system (e : SystemError) (path : String)
  | undecodable (fault : Utf8.Fault)

/-- An error of the language, by its cause. -/
inductive LispError where
  /-- A form was asked of a text that holds no token. -/
  | noToken
  | strayClose
  | unclosedList
  | emptyCall
  /-- A function stands where an expression is wanted. -/
  | functionAsForm
  | unbound (name : String)
  | notASymbol (name : Value)
  | paramsNotAList
  | paramNotASymbol
  | conditionNotABool (condition : Value)
  | targetNotASymbol
  | pathNotAText
  | notANumber
  | notAList
  | carOfEmptyList
  | notAFunction (head : Value)
  | divisionByZero
  /-- A primitive that folds or compares numbers was given none. -/
  | noOperand (p : Primitive)
  | primitiveArity (p : Primitive) (expected actual : Nat)
  | closureArity (expected actual : Nat)
  | conditionMissing
  | tooManyBranches (actual : Nat)
  | branchMissing (index actual : Nat)
  | defineArity (actual : Nat)
  | lambdaArity (actual : Nat)
  | loadArity (actual : Nat)
  | bindingsArity (actual : Nat)
  | printArity (actual : Nat)
  | unreadable (reason : ReadError)

/-- The families of errors. -/
inductive ErrorKind where
  | grammar | unbound | type | arity | call | division | reading
  deriving DecidableEq

def ReadError.message : ReadError → String
  | .unknown path => path
  | .system e path => e.messageAt path
  | .undecodable fault => fault.message

namespace LispError

def kind : LispError → ErrorKind
  | .noToken | .strayClose | .unclosedList | .emptyCall | .functionAsForm => .grammar
  | .unbound _ => .unbound
  | .notASymbol _ | .paramsNotAList | .paramNotASymbol | .conditionNotABool _ | .targetNotASymbol
  | .pathNotAText | .notANumber | .notAList | .carOfEmptyList => .type
  | .notAFunction _ => .call
  | .divisionByZero => .division
  | .noOperand _ | .primitiveArity .. | .closureArity .. | .conditionMissing | .tooManyBranches _
  | .branchMissing .. | .defineArity _ | .lambdaArity _ | .loadArity _ | .bindingsArity _
  | .printArity _ => .arity
  | .unreadable _ => .reading

/-- How many arguments were expected and how many given, where an error is about that. -/
def counts? : LispError → Option (Nat × Nat)
  | .primitiveArity _ expected actual => some (expected, actual)
  | .closureArity expected actual => some (expected, actual)
  | .conditionMissing => some (3, 0)
  | .tooManyBranches actual => some (3, actual)
  | .branchMissing _ actual => some (3, actual)
  | .defineArity actual => some (2, actual)
  | .lambdaArity actual => some (2, actual)
  | .loadArity actual => some (1, actual)
  | .bindingsArity actual => some (0, actual)
  | .printArity actual => some (1, actual)
  | _ => none

def message : LispError → String
  | .noToken => "could not get token"
  | .strayClose => "unexpected `)`"
  | .unclosedList => "could not find closing `)`"
  | .emptyCall => "expected a non empty list"
  | .functionAsForm => "unexpected syntax"
  | .unbound name => "unexpected symbol='" ++ name ++ "'"
  | .notASymbol name => "Cannot define " ++ name.render ++ " as a symbol"
  | .paramsNotAList => "expected args form to be a list"
  | .paramNotASymbol => "expected symbols in the argument list"
  | .conditionNotABool condition => "unexpected if args = '" ++ condition.render ++ "'"
  | .targetNotASymbol => "expected first arg to be a symbol"
  | .pathNotAText => "load expects a string path"
  | .notANumber => "expected number"
  | .notAList => "this value is not list"
  | .carOfEmptyList => "car of empty list"
  | .notAFunction head => "Invalid Function: '" ++ head.render ++ "'"
  | .divisionByZero => "'/' first element can't be 0"
  | .noOperand p => p.name ++ " requires at least 1 argument"
  | .primitiveArity p expected actual =>
    "Wrong number of arguments: " ++ p.name ++ ", expected " ++ toString expected ++ ", got " ++
      toString actual
  | .closureArity expected actual =>
    "expected " ++ toString expected ++ " arguments, got " ++ toString actual
  | .conditionMissing => "expected first arg to be a bool"
  | .tooManyBranches _ => "if can only have three args"
  | .branchMissing index _ => "expected args idx=" ++ toString index
  | .defineArity _ => "let requires exactly 2 arguments"
  | .lambdaArity _ => "fn requires a parameter list and at least one body form"
  | .loadArity _ => "load requires exactly 1 argument"
  | .bindingsArity _ => "env takes no arguments"
  | .printArity _ => "print requires exactly 1 argument"
  | .unreadable reason => "IO Error `" ++ reason.message ++ "`"

end LispError

/-- A fault of the surroundings that is no error of the language. -/
inductive HostFault where
  /-- The file system did not say whether there is anything at a path. -/
  | unanswered (e : SystemError) (path : String)
  /-- A path holds the character U+0000. -/
  | nulInPath
  /-- The history setting names no file. -/
  | noHistoryEntry
  deriving DecidableEq

def HostFault.message : HostFault → String
  | .unanswered e path => e.messageAt path
  | .nulInPath => "embedded null byte"
  | .noHistoryEntry => "list index out of range"

/-- Why a computation has no value. -/
inductive Failure where
  | error (e : LispError)
  | stackExhausted
  | host (fault : HostFault)

def Failure.message : Failure → String
  | .error e => e.message
  | .stackExhausted => "maximum recursion depth exceeded"
  | .host fault => fault.message

end SmallLisp
