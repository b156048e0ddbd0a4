import Flipbook.Files.FileSystem
import Flipbook.Yaml.Library

namespace Flipbook

open Text

inductive LoadError
  | file (path : Text) (error : FileError)
  | notAName
  | notText
  | notDocument (path : Text) (fault : Yaml.Fault)
  | notMapping (path : Text)

/-- What is said of the error; nothing of one that is not reported. -/
def LoadError.message? : LoadError → Option Text
  | file path error => some ("Cannot load ".toList ++ path ++ ": ".toList ++ error.message)
  | notDocument path fault =>
    fault.message?.map fun message => "Cannot load ".toList ++ path ++ ": ".toList ++ message
  | notMapping path => some (path ++ " must contain a mapping".toList)
  | notAName | notText => none

namespace Configuration

/-- The configuration that a document is. What says no is an empty one. -/
def ofDocument (path : Text) (document : Yaml.Document) : Except LoadError Configuration :=
  match document.value with
  | .mapping node => return { document.store with root := node }
  | value => if document.store.isOn value then throw (.notMapping path) else return {}

variable [Yaml.Library]

def ofBytes (path : Text) (content : Bytes) : Except LoadError Configuration :=
  match decode? content with
  | some t => do ofDocument path (← (Yaml.Library.document (normalizeLines t)).mapError (.notDocument path))
  | none =>
    match Yaml.Library.early? content with
    | some fault => throw (.notDocument path fault)
    | none => throw .notText

variable {m : Type → Type} [Monad m] [FileSystem m]

def load (path : Option Text) : ExceptT LoadError m Configuration := do
  match path with
  | none | some [] => return {}
  | some path =>
    let content ← ExceptT.adapt (fun error : FileError =>
      if error.problem = .notAName then .notAName else .file path error) (FileSystem.read (.verbatim path))
    ofBytes path content

end Configuration
end Flipbook
