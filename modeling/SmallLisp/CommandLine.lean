/-
# The command line

The command runs scripts in order in one session, or the read-eval-print loop if it is given none.
A script of the settings comes first, and if it fails nothing else is run. The value of each script
is shown on the standard output and its error on the standard error; the exit status tells whether
all went well. A failure that is no error of the language ends the command where it stands.

Key definitions: `CommandLine.run`, `CommandLine.runScripts`, `CommandLine.report`.
-/
import SmallLisp.CommandLine.Options
import SmallLisp.Repl
import SmallLisp.SearchPath
import SmallLisp.Settings

namespace SmallLisp

/-- Text for the two outputs of a command. -/
structure Output where
  out : String
  err : String
  deriving DecidableEq

namespace Output

def empty : Output := ⟨"", ""⟩

/-- One output and then another. -/
def append (a b : Output) : Output := ⟨a.out ++ b.out, a.err ++ b.err⟩

instance : Append Output := ⟨append⟩

/-- A line on the standard output. -/
def line (text : String) : Output := ⟨text ++ "\n", ""⟩

/-- A line on the standard error. -/
def complaint (text : String) : Output := ⟨"", text ++ "\n"⟩

/-- Outputs one after another. -/
def concat (outputs : List Output) : Output :=
  ⟨String.join (outputs.map Output.out), String.join (outputs.map Output.err)⟩

/-- A note, for those who asked for notes. -/
def ofNote (verbose : Bool) : Note → Output
  | .loading path => if verbose then complaint ("risp.modules.file_loader: loading " ++ path) else empty
  | .evaluated forms =>
    if verbose then
      complaint ("risp.modules.file_loader: evaluated " ++ toString forms ++ " top-level form(s)")
    else empty

/-- The prompt for a line, in colour; the marks around the colours tell a line editor that they
take no room. -/
def prompt (number : Nat) : Output :=
  ⟨"\x01\x1b[1;32m\x02" ++ Repl.promptText number ++ "\x01\x1b[0m\x02", ""⟩

def ofEvent (verbose : Bool) : Repl.Event → Output
  | .prompt number => prompt number
  | .line text => line text
  | .warning text => complaint (if verbose then "risp.repl: " ++ text else text)
  | .note n => ofNote verbose n
  | .noHistory path e =>
    if verbose then complaint ("risp.repl: no history at " ++ path.text ++ ": " ++ e.message)
    else empty

end Output

namespace CommandLine

def usage : String := "usage: risp [-h] [-v] [files ...]\n"

def help : String :=
  usage ++ "\nA minimal Lisp interpreter.\n\npositional arguments:\n" ++
    "  files          scripts to evaluate in order\n\noptions:\n" ++
    "  -h, --help     show this help message and exit\n" ++
    "  -v, --verbose  enable debug logging\n"

/-- The output of a command line that is refused. -/
def refusal (e : Options.UsageError) : Output := ⟨"", usage ++ "risp: error: " ++ e.message ++ "\n"⟩

/-- What a session was seen to do for a reply. -/
def seen {α : Type} (verbose : Bool) (reply : Reply α) : Output :=
  .concat (reply.notes.map (.ofNote verbose) ++ reply.lines.map .line)

/-- What is shown of a script that was run, and whether it succeeded. -/
def report (verbose : Bool) (showValue : Bool) (reply : Reply (Except Failure Value)) :
    Output × Except Failure Bool :=
  match reply.outcome with
  | .ok v => (seen verbose reply ++ if showValue then .line v.successLine else .empty, .ok true)
  | .error (.error e) => (seen verbose reply ++ .complaint e.line, .ok false)
  | .error failure => (seen verbose reply, .error failure)

/-- A run of the command, or of a part of it: its output and its exit status, or the failure that it
died of. -/
structure Result where
  output : Output
  ending : Except Failure Nat

/-- A result after some more output. -/
def Result.after (before : Output) (r : Result) : Result := { r with output := before ++ r.output }

/-- Scripts run one after another, failed ones included. The status is that of the ones before, as
long as none fails. -/
def runScripts (verbose : Bool) (setup : Setup) (session : Session) (status : Nat) :
    List String → Result
  | [] => ⟨.empty, .ok status⟩
  | path :: paths =>
    let reply := session.load setup path
    match report verbose true reply with
    | (output, .ok succeeded) =>
      (runScripts verbose setup reply.session (if succeeded then status else 1) paths).after output
    | (output, .error failure) => ⟨output, .error failure⟩

/-- The read-eval-print loop over the lines of the standard input, which no line editor records. -/
def runLoop (verbose : Bool) (setup : Setup) (session : Session) (settings : Settings) (disk : Disk)
    (lines : List String) : Result :=
  match settings.historyFile with
  | .error fault => ⟨.empty, .error (.host fault)⟩
  | .ok historyFile =>
    let loop := Repl.run ⟨setup, historyFile, false⟩ session disk lines .endOfInput
    ⟨.concat (loop.events.map (.ofEvent verbose)),
      match loop.fault with
      | none => .ok 0
      | some fault => .error (.host fault)⟩

/-- The scripts of a command line, or the loop if there are none. -/
def runMain (verbose : Bool) (setup : Setup) (session : Session) (settings : Settings) (disk : Disk)
    (scripts lines : List String) : Result :=
  if scripts.isEmpty then runLoop verbose setup session settings disk lines
  else runScripts verbose setup session 0 scripts

/-- The script of the settings and then all else, if it did not fail. -/
def runFrom (verbose : Bool) (setup : Setup) (settings : Settings) (disk : Disk)
    (scripts lines : List String) : Result :=
  match settings.prelude? with
  | none => runMain verbose setup .fresh settings disk scripts lines
  | some prelude =>
    let reply := Session.fresh.load setup prelude.text
    match report verbose false reply with
    | (output, .ok true) =>
      (runMain verbose setup reply.session settings disk scripts lines).after output
    | (output, .ok false) => ⟨output, .ok 1⟩
    | (output, .error failure) => ⟨output, .error failure⟩

/-- What sessions run in: the scripts of a disk, under the standard limits. -/
def setupOn (settings : Settings) (disk : Disk) : Setup :=
  ⟨SearchPath.scripts disk settings.roots, .standard⟩

/-- The command with its arguments and the lines of its standard input. -/
def run (settings : Settings) (disk : Disk) (arguments lines : List String) : Result :=
  match Options.read arguments with
  | .error e => ⟨refusal e, .ok 2⟩
  | .ok .help => ⟨⟨help, ""⟩, .ok 0⟩
  | .ok (.run verbose scripts) =>
    runFrom verbose (setupOn settings disk) settings disk scripts lines

/-- The lines of an input; what follows the last line feed is a line if it is not empty. -/
def inputLines (text : String) : List String :=
  let lines := (Text.fields '\n' text.toList).map String.ofList
  if lines.getLast? = some "" then lines.dropLast else lines

end CommandLine
end SmallLisp
