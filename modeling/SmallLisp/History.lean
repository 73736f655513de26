/-
# Line history

The lines that have been typed in, kept in a file from session to session. A session begins with
the lines of the file, adds its own, and in the end appends those to the file. A session without
lines of its own leaves the file alone.

Key definitions: `History`, `History.load`, `History.added`, `History.save`.
-/
import SmallLisp.Disk

namespace SmallLisp

/-- The lines of earlier sessions and of this one, oldest first. -/
structure History where
  entries : List String

namespace History

def empty : History := ⟨[]⟩

/-- The lines of a text. -/
def linesOf (bytes : List UInt8) : List String :=
  match Utf8.decode bytes with
  | .ok cs => ((Text.fields '\n' cs).filter (!·.isEmpty)).map String.ofList
  | .error _ => []

/-- The lines that a file holds, or why they cannot be read. -/
def load (disk : Disk) (p : Path) : Except SystemError History :=
  (disk.readBytes p).map fun bytes => ⟨linesOf bytes⟩

def length (h : History) : Nat := h.entries.length

def add (h : History) (line : String) : History := ⟨h.entries ++ [line]⟩

/-- The lines added since there were a number of them. -/
def added (h : History) (start : Nat) : List String := h.entries.drop start

/-- The disk after the lines added since there were a number of them are written at the end of a
file, and why they could not be, if they could not. -/
def save (h : History) (start : Nat) (disk : Disk) (p : Path) : Disk × Option Disk.WriteError :=
  match h.added start with
  | [] => (disk, none)
  | line :: lines => disk.append p (String.join ((line :: lines).map (· ++ "\n")))

end History
end SmallLisp
