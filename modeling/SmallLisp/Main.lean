/-
# The command on a machine

The command line with the arguments, the environment, the disk and the standard streams of a
process. What it does is said elsewhere, turn by turn; here each turn is only given what it needs,
when it needs it, so that a line typed in is answered before the next one is read.

What a turn does is a function of a disk, and which part of the disk it looks at is known from the
scripts that it notes. So it is tried on the part that is known, and again on more, until it looks
at nothing new (`Machine.settle`).

Key definitions: `Machine.learn`, `Machine.settle`, `Machine.follow`, `main`.
-/
import SmallLisp.CommandLine.Turns

namespace SmallLisp
namespace Machine

/-! ## What is on the disk -/

/-- The number and the text of an error of the machine. -/
def codeOf : IO.Error → UInt32 × String
  | .noFileOrDirectory _ number text | .interrupted _ number text => (number, text)
  | .alreadyExists _ number text | .inappropriateType _ number text
  | .invalidArgument _ number text | .noSuchThing _ number text
  | .permissionDenied _ number text | .resourceExhausted _ number text => (number, text)
  | .hardwareFault number text | .otherError number text | .resourceBusy number text
  | .resourceVanished number text | .unsupportedOperation number text => (number, text)
  | e => (0, toString e)

/-- The error of the file system behind an error of the machine. What asks for a state and what opens
a file number it with different signs. -/
def systemError (e : IO.Error) : SystemError :=
  let (number, text) := codeOf e
  let number := (if number < 0x80000000 then number else 0 - number).toNat
  ([.noEntry, .badDescriptor, .permissionDenied, .notADirectory, .isADirectory, .noSpace,
    .nameTooLong, .linkLoop].find? (·.number == number)).getD ⟨number, text⟩

/-- The bytes of a file of the machine, or why there are none. -/
def readFile (place : String) : IO (Except SystemError (List UInt8)) := do
  try
    return .ok (← IO.FS.readBinFile place).toList
  catch e => return .error (systemError e)

/-- Whether the machine tells that there is something at a place. -/
def isPresent (place : String) : IO Bool := do
  try
    discard (IO.FS.realPath place)
    return true
  catch _ => return false

/-- What the machine has at a location, why that cannot be read, and why it is not known. -/
inductive Sight where
  | readable (entry : Disk.Entry)
  | closed (entry : Disk.Entry) (e : SystemError)
  | unknown (e : SystemError)

/-- A look at a location of the machine. What cannot be read is a file if there is no way on
from it. -/
def look (location : List String) : IO Sight := do
  let place := "/" ++ "/".intercalate location
  match ← readFile place with
  | .ok bytes => return .readable (.file bytes)
  | .error e =>
    if e = .isADirectory then return .readable .directory
    else if !(← isPresent place) then return .unknown e
    else
      match ← readFile (place ++ "/.") with
      | .error e' => return .closed (if e' = .notADirectory then .file [] else .directory) e
      | .ok _ => return .closed .directory e

/-- The disk with what a look at a location has told. A name that leads to nothing is no refusal. -/
def note (disk : Disk) (location : List String) : Sight → Disk
  | .readable entry => { disk with entries := (location, entry) :: disk.entries }
  | .closed entry e =>
    { disk with
      entries := (location, entry) :: disk.entries
      refusals := { disk.refusals with
        read := fun l => if l = location then some e else disk.refusals.read l } }
  | .unknown e =>
    if e = .noEntry then disk
    else
      { disk with
        refusals := { disk.refusals with
          search := fun directory name =>
            if directory ++ [name] = location then some e else disk.refusals.search directory name } }

/-- A disk with all that the machine has on the way along some names. -/
def learn (disk : Disk) (location : List String) (names : List String) : IO Disk := do
  let disk := note disk location (← look location)
  match disk.entryAt? location, names with
  | some .directory, name :: names =>
    learn disk (if name = ".." then location.dropLast else location ++ [name]) names
  | _, _ => return disk

/-- A disk with all that the machine has on the way of a path. -/
def learnPath (disk : Disk) (p : Path) : IO Disk :=
  learn disk (if p.isAbsolute then [] else disk.workingDirectory) p.parts

/-- A disk with all that the machine has where a script may be. -/
def learnScript (roots : List Path) (disk : Disk) (path : String) : IO Disk :=
  (Path.ofString path :: roots.map (·.join (.ofString path))).foldlM learnPath disk

/-! ## Turns -/

/-- The scripts that some notes name. -/
def scriptsIn (notes : List Note) : List String :=
  notes.filterMap fun
    | .loading path => some path
    | .evaluated _ => none

/-- The turn that comes of a disk, once the disk holds all that it looks at. `known` are the scripts
whose places are on the disk already. -/
partial def settle (roots : List Path) (turn : Disk → CommandLine.Turn) (known : List String)
    (disk : Disk) : IO CommandLine.Turn := do
  let result := turn disk
  match (scriptsIn result.notes).filter (!known.contains ·) with
  | [] => return result
  | path :: _ => settle roots turn (path :: known) (← learnScript roots disk path)

def emit (output : Output) : IO Unit := do
  let out ← IO.getStdout
  out.putStr output.out
  out.flush
  (← IO.getStderr).putStr output.err

/-- The next line of the input, if there is one. -/
def readLine : IO (Option String) := do
  let line ← (← IO.getStdin).getLine
  return if line.isEmpty then none else (CommandLine.inputLines line).head?

/-- The exit status of a command. One that something unforeseen ends tells what it was. -/
def exit : Except Failure Nat → IO UInt32
  | .ok status => return status.toUInt32
  | .error failure => do
    emit (.complaint failure.message)
    return 1

/-- A command taken turn by turn to its end, on a disk that is looked at anew in each. -/
partial def follow (c : CommandLine.Course) (disk : Disk) : IO UInt32 := do
  match c.stage with
  | .ended ending => exit ending
  | stage =>
    let line? ← if stage.asks then readLine else pure none
    let turn ← settle c.settings.roots (c.turn · line?) [] (← c.places.foldlM learnPath disk)
    emit turn.output
    follow (c.after turn) disk

/-- The settings in the environment of this process. -/
def settings : IO Settings :=
  return ⟨← IO.getEnv Settings.loadPathVariable, ← IO.getEnv Settings.historyVariable,
    ← IO.getEnv Settings.preludeVariable⟩

/-- The command with its arguments, for the exit status. -/
def command (arguments : List String) : IO UInt32 := do
  let (shown, course) := CommandLine.start (← settings) arguments
  emit shown
  follow course (.ofEntries (Path.ofString (← IO.currentDir).toString).parts [])

end Machine
end SmallLisp

def main (arguments : List String) : IO UInt32 := SmallLisp.Machine.command arguments
