/-
# Command line options

The arguments of the command: scripts, and the options `-h`, `--help`, `-v` and `--verbose`. Short
options may share a dash, long ones may be shortened as long as they stay clear, and `--` ends the
options. None takes a value, and one that is given a value is refused. Scripts come in one row: what
follows an option that stands behind scripts is no longer one. Arguments are taken in order, so the
help that comes before a mistake is shown; the options of one argument are taken together.

Key definitions: `Options.Argument`, `Options.classify`, `Options.takeAll`, `Options.read`.
-/
import SmallLisp.Text.DecimalDigit
import SmallLisp.Text.Quoted

namespace SmallLisp
namespace Options

inductive Flag where
  | help
  | verbose
  deriving DecidableEq

/-- How a flag is named in messages. -/
def Flag.title : Flag → String
  | .help => "-h/--help"
  | .verbose => "-v/--verbose"

def Flag.letter : Flag → Char
  | .help => 'h'
  | .verbose => 'v'

def Flag.word : Flag → String
  | .help => "--help"
  | .verbose => "--verbose"

def Flag.all : List Flag := [.help, .verbose]

def Flag.ofLetter? (c : Char) : Option Flag := all.find? (·.letter == c)

/-- What one argument is by itself. -/
inductive Argument where
  | script (text : String)
  /-- The first `--`; all that follows are scripts. -/
  | separator
  /-- A short option and the characters that follow it in the same argument. -/
  | short (flag : Flag) (tail : List Char)
  /-- A long option and the text after its `=`, if it has one. -/
  | long (flag : Flag) (value : Option String)
  | unknown (text : String)

/-- Why a command line is refused. -/
inductive UsageError where
  | ambiguous (text : String) (flags : List Flag)
  | valueIgnored (flag : Flag) (value : String)
  | unrecognized (arguments : List String)

def UsageError.message : UsageError → String
  | .ambiguous text flags =>
    "ambiguous option: " ++ text ++ " could match " ++ ", ".intercalate (flags.map Flag.word)
  | .valueIgnored flag value =>
    "argument " ++ flag.title ++ ": ignored explicit argument " ++ Text.quote value
  | .unrecognized arguments => "unrecognized arguments: " ++ " ".intercalate arguments

/-- A row of one or more digits. -/
def allDigits (cs : List Char) : Bool := !cs.isEmpty && cs.all fun c => (Text.digit? c).isSome

/-- Whether characters after a dash make a negative number: digits, with a point before the last of
them if there is one. A line feed at the end does not count. -/
def isNumber (cs : List Char) : Bool :=
  let body := if cs.getLast? = some '\n' then cs.dropLast else cs
  let whole := body.takeWhile (· != '.')
  match body.dropWhile (· != '.') with
  | [] => allDigits whole
  | _ :: fraction => (whole.isEmpty || allDigits whole) && allDigits fraction

/-- What an argument that starts with a dash is, if it is no known option: a script if it looks like
a negative number or holds a space. -/
def classifyOther (text : String) (tail : List Char) : Argument :=
  if isNumber tail || tail.contains ' ' then .script text else .unknown text

/-- What an argument is that starts with two dashes. -/
def classifyLong (text : String) (tail : List Char) : Except UsageError Argument :=
  let name := "--" ++ String.ofList (tail.takeWhile (· != '='))
  let value :=
    match tail.dropWhile (· != '=') with
    | [] => none
    | _ :: cs => some (String.ofList cs)
  match Flag.all.filter fun f => name.toList.isPrefixOf f.word.toList with
  | [] => .ok (classifyOther text ('-' :: tail))
  | [flag] => .ok (.long flag value)
  | flags => .error (.ambiguous text flags)

/-- What an argument is by itself. -/
def classify (text : String) : Except UsageError Argument :=
  match text.toList with
  | ['-', '-'] => .ok .separator
  | '-' :: '-' :: tail => classifyLong text tail
  | '-' :: c :: tail =>
    match Flag.ofLetter? c with
    | some flag => .ok (.short flag tail)
    | none => .ok (classifyOther text (c :: tail))
  | _ => .ok (.script text)

/-- What the arguments of a command line are. -/
def classifyAll : List String → Except UsageError (List Argument)
  | [] => .ok []
  | text :: texts => do
    match ← classify text with
    | .separator => .ok (.separator :: texts.map .script)
    | argument => .ok (argument :: (← classifyAll texts))

/-- A flag and those whose letters follow it, in order. Letters are flags as far as they can be: from
the first one on that is none, they would be a value, and no flag takes one. -/
def takeLetters (flag : Flag) : List Char → Except UsageError (List Flag)
  | [] => .ok [flag]
  | c :: tail =>
    match Flag.ofLetter? c with
    | some next => (takeLetters next tail).map (flag :: ·)
    | none => .error (.valueIgnored flag (String.ofList (c :: tail)))

/-- The flags of an argument with a single dash, in order. An equals sign right behind the first
letter only sets it apart from the letters that follow, but one with nothing behind it gives the
flag an empty value. -/
def takeShort (flag : Flag) : List Char → Except UsageError (List Flag)
  | ['='] => .error (.valueIgnored flag "")
  | '=' :: tail => takeLetters flag tail
  | tail => takeLetters flag tail

/-- What a command line asks for. -/
inductive Request where
  | help
  | run (verbose : Bool) (scripts : List String)
  deriving DecidableEq

/-- Where the row of scripts stands: it is yet to come, it has begun, or an option has ended it. -/
inductive Row where
  | ahead
  | begun
  | ended
  deriving DecidableEq

/-- The row after an option. -/
def Row.afterOption : Row → Row
  | .ahead => .ahead
  | .begun => .ended
  | .ended => .ended

/-- A command line of which some arguments are taken: whether `-v` was among them, the scripts, and
those that nothing recognized. -/
structure Taken where
  verbose : Bool
  row : Row
  scripts : List String
  extras : List String

def Taken.start : Taken := ⟨false, .ahead, [], []⟩

/-- An option taken. -/
def Taken.option (taken : Taken) (verbose : Bool) (extras : List String) : Taken :=
  ⟨taken.verbose || verbose, taken.row.afterOption, taken.scripts, taken.extras ++ extras⟩

/-- An argument taken that is no option: as scripts, or as nothing known behind their row. -/
def Taken.place (taken : Taken) (text : String) (scripts : List String) : Taken :=
  match taken.row with
  | .ended => { taken with extras := taken.extras ++ [text] }
  | _ => { taken with row := .begun, scripts := taken.scripts ++ scripts }

/-- The request of arguments, given what was taken before them. -/
def takeAll (taken : Taken) : List Argument → Except UsageError Request
  | [] =>
    if taken.extras.isEmpty then .ok (.run taken.verbose taken.scripts)
    else .error (.unrecognized taken.extras)
  | .script text :: rest => takeAll (taken.place text [text]) rest
  | .separator :: rest => takeAll (taken.place "--" []) rest
  | .unknown text :: rest => takeAll (taken.option false [text]) rest
  | .long flag (some value) :: _ => .error (.valueIgnored flag value)
  | .long .help none :: _ => .ok .help
  | .long .verbose none :: rest => takeAll (taken.option true []) rest
  | .short flag tail :: rest =>
    match takeShort flag tail with
    | .error e => .error e
    | .ok flags =>
      if flags.contains .help then .ok .help else takeAll (taken.option true []) rest

/-- The request of a command line. -/
def read (arguments : List String) : Except UsageError Request := do
  takeAll .start (← classifyAll arguments)

end Options
end SmallLisp
