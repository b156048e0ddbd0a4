import Flipbook.Files.FileSystem
import Flipbook.Table

namespace Flipbook

open Text

/-- The names that lead to a place from the working directory, two dots for each step up first; from a
    root the root is the first name. -/
abbrev FileTree.Place := List Text

inductive FileEntry
  | file (content : Bytes)
  | directory
  deriving DecidableEq, Repr

abbrev FileTree := Table FileEntry FileTree.Place

namespace FileTree

def up : Text := ['.', '.']

/-- Directories that are always there. -/
def isAbove (place : Place) : Bool := place.all (· = up) || place = [['/']] || place = [['/', '/']]

def entry? (tree : FileTree) (place : Place) : Option FileEntry :=
  if isAbove place then some .directory else tree.get? place

/-- The most bytes of a name, and of a path. -/
def mostNameBytes : Nat := 255

def mostPathBytes : Nat := 4095

def above (place : Place) : Place :=
  if place.head?.any (·.head? = some '/') then place.head?.toList ++ place.tail.dropLast
  else if place.all (· = up) then place ++ [up]
  else place.dropLast

/-- The place to which names lead. There has to be a directory before each of them. -/
def walk (tree : FileTree) (place : Place) : List Text → Except FileProblem Place
  | [] => return place
  | name :: rest =>
    match tree.entry? place with
    | none => throw .notFound
    | some (.file _) => throw .notDirectory
    | some .directory =>
      if name = ['.'] then walk tree place rest
      else if name = up then walk tree (above place) rest
      else if mostNameBytes < byteLength name then throw .nameTooLong
      else walk tree (place ++ [name]) rest

def resolve (tree : FileTree) (path : Path) : Except FileProblem Place :=
  if path.text.contains '\x00' then throw .notAName
  else if mostPathBytes < byteLength path.text then throw .nameTooLong
  else tree.walk (if path.root.isEmpty then [] else [path.root]) path.parts

def kind (tree : FileTree) (path : Path) : Except FileProblem FileKind := do
  match tree.entry? (← tree.resolve path) with
  | none => throw .notFound
  | some (.file _) => return .file
  | some .directory => return .directory

def read (tree : FileTree) (path : Path) : Except FileProblem Bytes := do
  match tree.entry? (← tree.resolve path) with
  | none => throw .notFound
  | some (.file content) => return content
  | some .directory => throw .isDirectory

def size (tree : FileTree) (path : Path) : Except FileProblem Nat := return (← tree.read path).length

def makeDirectory (tree : FileTree) (path : Path) : Except FileProblem FileTree := do
  let place ← tree.resolve path
  match tree.entry? place with
  | none => return tree.insert place .directory
  | some _ => throw .alreadyThere

def write (tree : FileTree) (path : Path) (content : Bytes) : Except FileProblem FileTree := do
  let place ← tree.resolve path
  match tree.entry? place with
  | none | some (.file _) => return tree.insert place (.file content)
  | some .directory => throw .isDirectory

def look {α : Type} (path : Path) (found : FileTree → Except FileProblem α) :
    ExceptT FileError (StateM FileTree) α :=
  ExceptT.mk fun tree => ((found tree).mapError fun problem => ⟨problem, path⟩, tree)

def change (path : Path) (changed : FileTree → Except FileProblem FileTree) :
    ExceptT FileError (StateM FileTree) Unit :=
  ExceptT.mk fun tree =>
    match changed tree with
    | .ok tree => (.ok (), tree)
    | .error problem => (.error ⟨problem, path⟩, tree)

instance : FileSystem (StateM FileTree) where
  kind path := look path fun tree => tree.kind path
  read path := look path fun tree => tree.read path
  size path := look path fun tree => tree.size path
  makeDirectory path := change path fun tree => tree.makeDirectory path
  write path content := change path fun tree => tree.write path content

/-- The tree with a file in it, and the directories on its path. -/
def withFile (tree : FileTree) (path : Path) (content : Bytes) : FileTree :=
  (ExceptT.run (m := StateM FileTree) (do
    FileSystem.makeDirectories path.parent
    FileSystem.write path content)).run tree |>.2

def ofFiles (files : List (Path × Bytes)) : FileTree :=
  files.foldl (fun tree (path, content) => tree.withFile path content) []

def files (tree : FileTree) : List (Path × Bytes) :=
  tree.filterMap fun (place, entry) =>
    match entry with
    | .file content =>
      if place.head?.any fun name => name = up || name.head? = some '/' then none else some (⟨[], place⟩, content)
    | .directory => none

end FileTree
end Flipbook
