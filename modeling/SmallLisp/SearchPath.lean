/-
# The search path

Where a script is looked for: at its path as given, and then below each of a list of roots. A path
that starts at a root of the disk, or that leads to something as it is, is taken as it is; so is
one that is found nowhere, and reading it then fails. If the disk does not say whether there is
anything at one of these paths, the search dies of it.

Key definitions: `SearchPath.resolve`, `SearchPath.scripts`.
-/
import SmallLisp.Disk
import SmallLisp.Evaluation

namespace SmallLisp
namespace SearchPath

/-- The first of some roots below which a path leads to a file, and otherwise the path itself. -/
def below (disk : Disk) (p : Path) : List Path → Except HostFault Path
  | [] => .ok p
  | root :: roots =>
    match disk.isFile (root.join p) with
    | .error e => .error (.unanswered e (root.join p).text)
    | .ok true => .ok (root.join p)
    | .ok false => below disk p roots

/-- The path that is read when one is asked for. -/
def resolve (disk : Disk) (roots : List Path) (p : Path) : Except HostFault Path :=
  if p.isAbsolute then .ok p
  else
    match disk.isPresent p with
    | .error e => .error (.unanswered e p.text)
    | .ok true => .ok p
    | .ok false => below disk p roots

/-- The scripts of a disk, searched for below roots. -/
def scripts (disk : Disk) (roots : List Path) : Scripts := fun path =>
  match resolve disk roots (.ofString path) with
  | .ok p => disk.readText p
  | .error fault => .error (.host fault)

end SearchPath
end SmallLisp
