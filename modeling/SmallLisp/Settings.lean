/-
# Settings

Three variables of the environment hold paths: where scripts are searched for, where the history of
the read-eval-print loop is kept, and what is run first. Each is a list of entries between colons;
an entry's blanks at either end do not count, nor does an entry of blanks only. A variable that is
unset or empty stands for its default. One that holds no entry although it is not empty has none,
which leaves the history without a file.

Key definitions: `Settings`, `Settings.roots`, `Settings.historyFile`, `Settings.prelude?`.
-/
import SmallLisp.Failure
import SmallLisp.Path

namespace SmallLisp

/-- The variables as they are set. -/
structure Settings where
  loadPath : Option String
  history : Option String
  prelude : Option String

namespace Settings

def loadPathVariable : String := "RISP_LOAD_PATH"

def historyVariable : String := "RISP_HISTORY"

def preludeVariable : String := "RISP_PRELUDE"

/-- The settings that an environment makes. -/
def ofEnvironment (setting : String → Option String) : Settings :=
  ⟨setting loadPathVariable, setting historyVariable, setting preludeVariable⟩

/-- The entries of a variable. -/
def entries (text : String) : List Path :=
  (((Text.fields ':' text.toList).map Text.trim).filter (!·.isEmpty)).map
    fun cs => .ofString (String.ofList cs)

/-- The paths of a variable, or some others if it is unset or empty. -/
def pathsOr (others : List Path) : Option String → List Path
  | none => others
  | some text => if text.isEmpty then others else entries text

/-- Where scripts are searched for. -/
def roots (s : Settings) : List Path := pathsOr [] s.loadPath

/-- Where the history is kept. -/
def historyFile (s : Settings) : Except HostFault Path :=
  match pathsOr [.ofString "history.txt"] s.history with
  | [] => .error .noHistoryEntry
  | p :: _ => .ok p

/-- What is run first, if anything. -/
def prelude? (s : Settings) : Option Path := (pathsOr [] s.prelude).head?

end Settings
end SmallLisp
