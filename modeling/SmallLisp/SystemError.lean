/-
# Errors of the file system

An error of the file system is a number with a text. Some of them mean no more than that there is
nothing at a path, or no way to it; the others leave it open what is there.

Key definitions: `SystemError`, `SystemError.meansAbsence`, `SystemError.message`,
`SystemError.messageAt`.
-/
import SmallLisp.Text.Quoted

namespace SmallLisp

structure SystemError where
  number : Nat
  text : String
  deriving DecidableEq

namespace SystemError

def noEntry : SystemError := ⟨2, "No such file or directory"⟩

def badDescriptor : SystemError := ⟨9, "Bad file descriptor"⟩

def permissionDenied : SystemError := ⟨13, "Permission denied"⟩

def notADirectory : SystemError := ⟨20, "Not a directory"⟩

def isADirectory : SystemError := ⟨21, "Is a directory"⟩

def noSpace : SystemError := ⟨28, "No space left on device"⟩

def nameTooLong : SystemError := ⟨36, "File name too long"⟩

def linkLoop : SystemError := ⟨40, "Too many levels of symbolic links"⟩

/-- Whether an error says that a path leads to nothing. -/
def meansAbsence (e : SystemError) : Bool :=
  [noEntry, badDescriptor, notADirectory, linkLoop].any (·.number == e.number)

/-- The error without the path that it is about. -/
def message (e : SystemError) : String :=
  "[Errno " ++ toString e.number ++ "] " ++ e.text

/-- The error with the path that it is about. -/
def messageAt (e : SystemError) (path : String) : String :=
  e.message ++ ": " ++ Text.quote path

end SystemError
end SmallLisp
