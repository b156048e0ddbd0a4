import Flipbook.Text.Blank

namespace Flipbook

structure Call where
  name : Text
  arguments : Text
  deriving DecidableEq, Repr

namespace Call

def findFrom (isName : Char → Bool) (name : Text) (inside : Option Call) : Text → List Call
  | [] => []
  | c :: rest =>
    match inside with
    | some call =>
      if c = ')' then call :: findFrom isName [] none rest
      else findFrom isName [] (some { call with arguments := call.arguments ++ [c] }) rest
    | none =>
      if isName c then findFrom isName (name ++ [c]) none rest
      else findFrom isName [] (if c = '(' ∧ name ≠ [] then some ⟨name, []⟩ else none) rest

def findAll (isName : Char → Bool) (t : Text) : List Call := findFrom isName [] none t

end Call
end Flipbook
