/-
# Disks

Files and directories as a process sees them: a working directory, a tree, which is kept as the
list of what is known to be in it, and what the system refuses to the process. A path is walked from
component to component, and the walk fails at the first one that it cannot pass.

A text is added to a file in two steps: the file is made if it is missing, and then it is written
to. Either step may be refused, as a whole, and what the first one has done stays done.

Key definitions: `Disk`, `Disk.Refusals`, `Disk.find`, `Disk.isPresent`, `Disk.readText`,
`Disk.append`.
-/
import SmallLisp.Failure
import SmallLisp.Path

namespace SmallLisp

inductive Disk.Entry where
  | file (bytes : List UInt8)
  | directory

/-- What the system refuses although the disk has what it takes, and by which error: for want of
permission or of space, or as a device fails. -/
structure Disk.Refusals where
  /-- To look a name up in a directory. -/
  search : List String → String → Option SystemError
  /-- To open what is at a location for reading. -/
  read : List String → Option SystemError
  /-- To make a file at a location. -/
  create : List String → Option SystemError
  /-- To add to the file at a location. -/
  write : List String → Option SystemError

/-- A working directory and what is on the disk, at locations that are lists of names from the root
on. What has something in it is a directory. -/
structure Disk where
  workingDirectory : List String
  entries : List (List String × Disk.Entry)
  refusals : Disk.Refusals

/-- Why nothing was written at a path. A path that could not be made sure of is named. -/
inductive Disk.WriteError where
  | refused (e : SystemError)
  | refusedAt (e : SystemError) (path : String)

def Disk.WriteError.message : Disk.WriteError → String
  | .refused e => e.message
  | .refusedAt e path => e.messageAt path

namespace Disk

/-- Nothing is refused. -/
def Refusals.nothing : Refusals := ⟨fun _ _ => none, fun _ => none, fun _ => none, fun _ => none⟩

/-- A disk on which nothing is refused. -/
def ofEntries (workingDirectory : List String) (entries : List (List String × Entry)) : Disk :=
  ⟨workingDirectory, entries, .nothing⟩

/-- What is at a location. -/
def entryAt? (disk : Disk) (location : List String) : Option Entry :=
  match disk.entries.lookup location with
  | some entry => some entry
  | none =>
    if location.isPrefixOf disk.workingDirectory ∨
        disk.entries.any fun e => location.isPrefixOf e.1 then
      some .directory
    else none

/-- The location that names lead to from another one. Every name but the last has to lead to a
directory that may be searched, and none may have more than 255 bytes. -/
def walk (disk : Disk) : List String → List String → Except SystemError (List String)
  | location, [] => .ok location
  | location, name :: names =>
    match disk.entryAt? location with
    | none => .error .noEntry
    | some (.file _) => .error .notADirectory
    | some .directory =>
      match disk.refusals.search location name with
      | some e => .error e
      | none =>
        if name = ".." then walk disk location.dropLast names
        else if 255 < name.utf8ByteSize then .error .nameTooLong
        else walk disk (location ++ [name]) names

/-- The location that a path means, whether anything is there or not. A path of 4096 bytes or more
means none. -/
def locate (disk : Disk) (p : Path) : Except SystemError (List String) :=
  if 4096 ≤ p.text.utf8ByteSize then .error .nameTooLong
  else disk.walk (if p.isAbsolute then [] else disk.workingDirectory) p.parts

/-- What a path leads to. -/
def find (disk : Disk) (p : Path) : Except SystemError Entry := do
  match disk.entryAt? (← disk.locate p) with
  | some entry => .ok entry
  | none => .error .noEntry

/-- Whether a path leads to something of a kind. That there is nothing, or no way, is an answer; so
it is for a path with U+0000, which is not asked about. Any other error leaves it open. -/
def test (disk : Disk) (kind : Entry → Bool) (p : Path) : Except SystemError Bool :=
  if p.hasNul then .ok false
  else
    match disk.find p with
    | .ok entry => .ok (kind entry)
    | .error e => if e.meansAbsence then .ok false else .error e

def isPresent (disk : Disk) : Path → Except SystemError Bool := disk.test fun _ => true

def isFile (disk : Disk) : Path → Except SystemError Bool :=
  disk.test fun
    | .file _ => true
    | .directory => false

/-- The bytes of the file at a path. -/
def readBytes (disk : Disk) (p : Path) : Except SystemError (List UInt8) := do
  let location ← disk.locate p
  match disk.entryAt? location, disk.refusals.read location with
  | none, _ => .error .noEntry
  | some _, some e => .error e
  | some (.file bytes), none => .ok bytes
  | some .directory, none => .error .isADirectory

/-- The text of the file at a path, its line ends unified. -/
def readText (disk : Disk) (p : Path) : Except Failure String :=
  if p.hasNul then .error (.host .nulInPath)
  else
    match disk.readBytes p with
    | .error e => .error (.error (.unreadable (.system e p.text)))
    | .ok bytes =>
      match Utf8.decode bytes with
      | .error fault => .error (.error (.unreadable (.undecodable fault)))
      | .ok cs => .ok (String.ofList (Utf8.unifyLineEnds cs))

/-- The disk with a file at a location. -/
def putFile (disk : Disk) (location : List String) (bytes : List UInt8) : Disk :=
  { disk with
    entries := (location, .file bytes) :: disk.entries.filter fun e => e.1 != location }

/-- The disk with a file at a path, an empty one if nothing was there. -/
def create (disk : Disk) (p : Path) : Except SystemError Disk := do
  let location ← disk.locate p
  match disk.entryAt? location, disk.refusals.create location with
  | some _, _ => .ok disk
  | none, some e => .error e
  | none, none => .ok (disk.putFile location [])

/-- The disk with something at a path, a new file if nothing was there. -/
def ensure (disk : Disk) (p : Path) : Except SystemError Disk := do
  if ← disk.isPresent p then .ok disk else disk.create p

/-- The disk with bytes at the end of a file, which has to be there. -/
def extend (disk : Disk) (p : Path) (bytes : List UInt8) : Except SystemError Disk := do
  let location ← disk.locate p
  match disk.entryAt? location, disk.refusals.write location with
  | none, _ => .error .noEntry
  | some .directory, _ => .error .isADirectory
  | some (.file _), some e => .error e
  | some (.file before), none => .ok (disk.putFile location (before ++ bytes))

/-- The disk after an attempt to add a text at the end of a file, which is made first if it is
missing, and why that has not come to its end, if it has not. -/
def append (disk : Disk) (p : Path) (text : String) : Disk × Option WriteError :=
  match disk.ensure p with
  | .error e => (disk, some (.refusedAt e p.text))
  | .ok ensured =>
    match ensured.extend p text.toUTF8.toList with
    | .error e => (ensured, some (.refused e))
    | .ok written => (written, none)

end Disk
end SmallLisp
