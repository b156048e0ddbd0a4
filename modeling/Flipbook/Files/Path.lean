import Flipbook.Text.Basic

namespace Flipbook

structure Path where
  root : Text
  parts : List Text
  deriving DecidableEq, Repr

namespace Path

open Text

/-- The slashes at the start. Two of them are a root of their own. -/
def rootOf (t : Text) : Text :=
  match (t.takeWhile (· = '/')).length with
  | 0 => []
  | 2 => ['/', '/']
  | _ => ['/']

def verbatim (t : Text) : Path :=
  let parts := wordsBy (· = '/') t
  ⟨rootOf t, if t.getLast? = some '/' then parts ++ [['.']] else parts⟩

/-- The path without parts that lead nowhere. Two dots stay, as the part before them may be a link. -/
def ofText (t : Text) : Path := ⟨rootOf t, (wordsBy (· = '/') t).filter (· ≠ ['.'])⟩

def text (path : Path) : Text :=
  if path.root.isEmpty && path.parts.isEmpty then ['.'] else path.root ++ joinWith ['/'] path.parts

def parent (path : Path) : Path := { path with parts := path.parts.dropLast }

/-- `other` as seen from `path`. -/
def join (path other : Path) : Path :=
  if other.root.isEmpty then { path with parts := path.parts ++ other.parts } else other

def name (path : Path) : Text := path.parts.getLast?.getD []

def stem (path : Path) : Text :=
  match cutAt? '.' path.name.reverse with
  | some (ending, before) => if ending.isEmpty || before.isEmpty then path.name else before.reverse
  | none => path.name

end Path
end Flipbook
