/-
# The read-eval-print loop

Lines are asked for one after another, with a counting prompt. Each line that is not blank is
evaluated in the session as the line before it has left it, and one more line shows its value or
its error; the loop goes on after errors. It ends with the input, with an interrupt, or with a fault
of the surroundings, and in every case saves the lines that its history has gained.

Key definitions: `Repl.Event`, `Repl.enter` (one line), `Repl.enterAll`, `Repl.run`.
-/
import SmallLisp.History
import SmallLisp.Session

namespace SmallLisp
namespace Repl

/-- The prompt for a line, by its number. -/
def promptText (number : Nat) : String := toString number ++ "> "

/-- Something that a user or an observer sees. -/
inductive Event where
  /-- A line is asked for, by its number. -/
  | prompt (number : Nat)
  | line (text : String)
  | warning (text : String)
  | note (n : Note)
  /-- The history could not be read. -/
  | noHistory (path : Path) (e : SystemError)

/-- How the input of a loop ends. -/
inductive Ending where
  | endOfInput
  | interrupt
  deriving DecidableEq

def Ending.farewell : Ending → String
  | .endOfInput => "Encountered Eof"
  | .interrupt => "Interrupted"

/-- What a loop runs in: where its session does, where its history is kept, and whether lines are
added to it. -/
structure Context where
  setup : Setup
  historyFile : Path
  records : Bool

/-- A loop between two lines. -/
structure State where
  session : Session
  history : History
  number : Nat

/-- What a part of a loop has shown, the state it has come to, and the fault it died of. -/
structure Step where
  events : List Event
  state : State
  fault : Option HostFault

/-- The events of a reply, lines and notes apart. -/
def replyEvents {α : Type} (reply : Reply α) : List Event :=
  reply.notes.map .note ++ reply.lines.map .line

/-- The history with a line that was typed in; an empty one is not kept. -/
def record (context : Context) (h : History) (line : String) : History :=
  if context.records && !line.isEmpty then h.add line else h

/-- One line typed in. -/
def enter (context : Context) (st : State) (line : String) : Step :=
  let history := record context st.history line
  if Text.allBlank line.toList then ⟨[], ⟨st.session, history, st.number + 1⟩, none⟩
  else
    let reply := st.session.answer context.setup line
    match reply.outcome with
    | .ok shown =>
      ⟨replyEvents reply ++ [.line shown], ⟨reply.session, history, st.number + 1⟩, none⟩
    | .error fault => ⟨replyEvents reply, ⟨reply.session, history, st.number⟩, some fault⟩

/-- Lines typed in one after another, and then the end of the input. -/
def enterAll (context : Context) (ending : Ending) (st : State) : List String → Step
  | [] => ⟨[.prompt st.number, .line ending.farewell], st, none⟩
  | line :: lines =>
    let first := enter context st line
    match first.fault with
    | some fault => ⟨.prompt st.number :: first.events, first.state, some fault⟩
    | none =>
      let others := enterAll context ending first.state lines
      ⟨.prompt st.number :: first.events ++ others.events, others.state, others.fault⟩

/-- A loop from its start to its end. -/
structure Outcome where
  events : List Event
  session : Session
  disk : Disk
  fault : Option HostFault

/-- The history that a loop begins with. -/
def openHistory (disk : Disk) (p : Path) : History × List Event :=
  match History.load disk p with
  | .ok h => (h, [])
  | .error e => (.empty, [.noHistory p e, .line "No previous history."])

/-- The disk after the history of a loop is saved, with a warning if that fails. -/
def saveHistory (disk : Disk) (p : Path) (start : Nat) (h : History) : Disk × List Event :=
  match h.save start disk p with
  | (disk, none) => (disk, [])
  | (disk, some e) =>
    (disk, [.warning ("could not write history to " ++ p.text ++ ": " ++ e.message)])

/-- A whole loop over given lines. -/
def run (context : Context) (session : Session) (disk : Disk) (lines : List String)
    (ending : Ending) : Outcome :=
  if context.historyFile.hasNul then ⟨[], session, disk, some .nulInPath⟩
  else
    let (history, opening) := openHistory disk context.historyFile
    let loop := enterAll context ending ⟨session, history, 1⟩ lines
    let (disk, closing) := saveHistory disk context.historyFile history.length loop.state.history
    ⟨opening ++ loop.events ++ closing, loop.state.session, disk, loop.fault⟩

end Repl
end SmallLisp
