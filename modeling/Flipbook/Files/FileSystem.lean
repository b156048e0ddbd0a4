import Flipbook.Files.Path
import Flipbook.Text.Digit
import Flipbook.Text.Quoted
import Flipbook.Text.Utf8

namespace Flipbook

inductive FileProblem
  | notFound
  | alreadyThere
  | notDirectory
  | isDirectory
  | nameTooLong
  | notAName
  | other (number : Nat) (description : Text)
  deriving DecidableEq, Repr

structure FileError where
  problem : FileProblem
  path : Path
  deriving DecidableEq, Repr

namespace FileProblem

def number : FileProblem → Nat
  | notFound => 2
  | alreadyThere => 17
  | notDirectory => 20
  | isDirectory => 21
  | nameTooLong => 36
  | notAName => 0
  | other number _ => number

def description : FileProblem → Text
  | notFound => "No such file or directory".toList
  | alreadyThere => "File exists".toList
  | notDirectory => "Not a directory".toList
  | isDirectory => "Is a directory".toList
  | nameTooLong => "File name too long".toList
  | notAName => "embedded null byte".toList
  | other _ description => description

def isAbsence : FileProblem → Bool
  | notFound | notDirectory | notAName => true
  | _ => false

end FileProblem

def FileError.message (error : FileError) : Text :=
  "[Errno ".toList ++ Text.ofNat error.problem.number ++ "] ".toList ++ error.problem.description
    ++ ": ".toList ++ Text.quoted error.path.text

inductive FileKind
  | file
  | directory
  deriving DecidableEq, Repr

class FileSystem (m : Type → Type) where
  kind : Path → ExceptT FileError m FileKind
  read : Path → ExceptT FileError m Text.Bytes
  /-- How many bytes a file has. -/
  size : Path → ExceptT FileError m Nat
  makeDirectory : Path → ExceptT FileError m Unit
  write : Path → Text.Bytes → ExceptT FileError m Unit

namespace FileSystem

variable {m : Type → Type} [Monad m] [FileSystem m]

instance {σ : Type} : FileSystem (StateT σ m) where
  kind path := ExceptT.mk (StateT.lift (kind path).run)
  read path := ExceptT.mk (StateT.lift (read path).run)
  size path := ExceptT.mk (StateT.lift (size path).run)
  makeDirectory path := ExceptT.mk (StateT.lift (makeDirectory path).run)
  write path content := ExceptT.mk (StateT.lift (write path content).run)

def is (wanted : FileKind) (path : Path) : ExceptT FileError m Bool :=
  tryCatch (return (← kind path) = wanted) fun error =>
    if error.problem.isAbsence then return false else throw error

def ensureDirectory (path : Path) : ExceptT FileError m Unit :=
  tryCatch (makeDirectory path) fun error => do
    if error.problem = .notFound then throw error
    if !(← is .directory path) then throw error

/-- Makes a directory, and up to `above` directories in which it is. -/
def ensureDirectories (above : Nat) (path : Path) : ExceptT FileError m Unit :=
  match above with
  | 0 => ensureDirectory path
  | above + 1 =>
    tryCatch (ensureDirectory path) fun error => do
      if error.problem ≠ .notFound then throw error
      ensureDirectories above path.parent
      ensureDirectory path

def makeDirectories (path : Path) : ExceptT FileError m Unit := ensureDirectories path.parts.length path

end FileSystem
end Flipbook
