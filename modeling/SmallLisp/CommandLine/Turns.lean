/-
# The command line in turns

The command as a process carries it out. It goes on turn by turn: a turn loads one script, or opens
the history, or takes one line of the input. What a turn shows is known when the turn is over, so it
can be shown before the next script is looked for or the next line is waited for. What all turns
come to is what `CommandLine.run` says.

Key definitions: `CommandLine.Stage`, `CommandLine.Course`, `CommandLine.start`, `Course.turn`.
-/
import SmallLisp.CommandLine

namespace SmallLisp

/-- The notes among events. -/
def Repl.notes (events : List Repl.Event) : List Note :=
  events.filterMap fun
    | .note n => some n
    | _ => none

namespace CommandLine

/-- What a command has yet to do. -/
inductive Stage where
  /-- The script of the settings is to be loaded, and then all else. -/
  | prelude (script : Path) (scripts : List String)
  /-- Scripts are to be loaded one after another. The status is that of the ones before. -/
  | scripts (session : Session) (status : Nat) (paths : List String)
  /-- The history is to be opened and the first line asked for. -/
  | opening (session : Session)
  /-- A line has been asked for. -/
  | asking (historyFile : Path) (state : Repl.State)
  | ended (ending : Except Failure Nat)

namespace Stage

/-- The scripts of a command line, or the loop if there are none. -/
def main (session : Session) (scripts : List String) : Stage :=
  if scripts.isEmpty then .opening session else .scripts session 0 scripts

/-- The script of the settings, if they have one, and then all else. -/
def first (settings : Settings) (scripts : List String) : Stage :=
  match settings.prelude? with
  | none => main .fresh scripts
  | some script => .prelude script scripts

/-- Whether the next turn takes a line of the input. -/
def asks : Stage → Bool
  | .asking .. => true
  | _ => false

end Stage

/-- A command under way. -/
structure Course where
  verbose : Bool
  settings : Settings
  stage : Stage

/-- What a turn shows, what its session has noted, and what is left to do. -/
structure Turn where
  output : Output
  notes : List Note
  stage : Stage

/-- A command before its first turn, and what it shows without any. -/
def start (settings : Settings) (arguments : List String) : Output × Course :=
  match Options.read arguments with
  | .error e => (refusal e, ⟨false, settings, .ended (.ok 2)⟩)
  | .ok .help => (⟨help, ""⟩, ⟨false, settings, .ended (.ok 0)⟩)
  | .ok (.run verbose scripts) => (.empty, ⟨verbose, settings, .first settings scripts⟩)

namespace Course

variable (c : Course)

/-- The paths besides scripts that the next turn looks at. -/
def places : List Path :=
  match c.stage, c.settings.historyFile with
  | .opening _, .ok historyFile => [historyFile]
  | _, _ => []

/-- The turn of a load, and what comes next unless the command dies of it. -/
def loading (showValue : Bool) (reply : Reply (Except Failure Value)) (next : Bool → Stage) : Turn :=
  match report c.verbose showValue reply with
  | (output, .ok succeeded) => ⟨output, reply.notes, next succeeded⟩
  | (output, .error failure) => ⟨output, reply.notes, .ended (.error failure)⟩

/-- The turn in which the history is opened and the first line asked for. -/
def opening (disk : Disk) (session : Session) : Turn :=
  match c.settings.historyFile with
  | .error fault => ⟨.empty, [], .ended (.error (.host fault))⟩
  | .ok historyFile =>
    if historyFile.hasNul then ⟨.empty, [], .ended (.error (.host .nulInPath))⟩
    else
      let (history, events) := Repl.openHistory disk historyFile
      ⟨.concat (events.map (.ofEvent c.verbose)) ++ .prompt 1, [],
        .asking historyFile ⟨session, history, 1⟩⟩

/-- The turn of a line, or of the end of the input. -/
def answering (context : Repl.Context) (state : Repl.State) : Option String → Turn
  | none => ⟨.line Repl.Ending.endOfInput.farewell, [], .ended (.ok 0)⟩
  | some line =>
    let step := Repl.enter context state line
    let shown := Output.concat (step.events.map (.ofEvent c.verbose))
    match step.fault with
    | none => ⟨shown ++ .prompt step.state.number, Repl.notes step.events,
        .asking context.historyFile step.state⟩
    | some fault => ⟨shown, Repl.notes step.events, .ended (.error (.host fault))⟩

/-- The next turn, with a line of the input if it takes one and there is one. -/
def turn (disk : Disk) (line? : Option String) : Turn :=
  match c.stage with
  | .prelude script scripts =>
    let reply := Session.fresh.load (setupOn c.settings disk) script.text
    c.loading false reply fun succeeded =>
      if succeeded then .main reply.session scripts else .ended (.ok 1)
  | .scripts session status (path :: paths) =>
    let reply := session.load (setupOn c.settings disk) path
    c.loading true reply fun succeeded =>
      .scripts reply.session (if succeeded then status else 1) paths
  | .scripts _ status [] => ⟨.empty, [], .ended (.ok status)⟩
  | .opening session => c.opening disk session
  | .asking historyFile state => c.answering ⟨setupOn c.settings disk, historyFile, false⟩ state line?
  | .ended ending => ⟨.empty, [], .ended ending⟩

/-- The command after a turn. -/
def after (t : Turn) : Course := { c with stage := t.stage }

end Course
end CommandLine
end SmallLisp
