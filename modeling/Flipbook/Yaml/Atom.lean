import Flipbook.Yaml.Place
import Flipbook.Yaml.Scalar

namespace Flipbook.Yaml

open Text

structure Atom where
  node : Node
  oneLine : Bool

def Atom.key? (atom : Atom) : Option SettingName :=
  match atom.node with
  | .scalar value => if atom.oneLine then keyName? value else none
  | _ => none

def isFlowMark (c : Char) : Bool := c = ',' || c = '[' || c = ']' || c = '{' || c = '}'

def startsPlain (inFlow : Bool) (t : Text) : Bool :=
  match t with
  | [] => false
  | c :: rest =>
    !(isGap c || "-?:,[]\x7b\x7d#&*!|>'\"%@\x60".toList.contains c)
      || (!startsGap rest && (c = '-' || (!inFlow && (c = '?' || c = ':'))))

def takeWord (inFlow : Bool) : Text → Text × Text
  | [] => ([], [])
  | c :: rest =>
    let endsKey := c = ':' && (startsGap rest || (inFlow && (rest.head?.any isFlowMark)))
    if isGap c || endsKey || (inFlow && (isFlowMark c || c = '?')) then ([], c :: rest)
    else
      let (word, rest) := takeWord inFlow rest
      (c :: word, rest)

def breakText (c : Char) : Char := if c = '\u2028' || c = '\u2029' then c else '\n'

def foldedBreaks (first : Char) (others : Text) : Text :=
  if breakText first ≠ '\n' then breakText first :: others
  else if others.isEmpty then [' ']
  else others

def takeBreaks? (isSpace : Char → Bool) : Text → Nat → Option (Text × Text × Nat)
  | [], column => some ([], [], column)
  | c :: rest, column =>
    if column = 0 ∧ Place.isEnd ⟨c :: rest, 0, true⟩ then none
    else if isBreak c then
      (takeBreaks? isSpace rest 0).map fun (breaks, after) => (breakText c :: breaks, after)
    else if isSpace c then takeBreaks? isSpace rest (column + 1)
    else some ([], c :: rest, column)

def takeWords (inFlow : Bool) (least : Nat) : Nat → Text → Place → Text × Bool × Place
  | 0, _, p => ([], true, p)
  | fuel + 1, gap, p =>
    let (word, rest) := takeWord inFlow p.rest
    if word.isEmpty || p.isNext '#' then ([], true, p)
    else
      let spaces := rest.takeWhile (· = ' ')
      let column := p.column + word.length + spaces.length
      let after : Place := ⟨rest.dropWhile (· = ' '), column, false⟩
      match after.rest with
      | c :: lines =>
        if isBreak c then
          match takeBreaks? (· = ' ') lines 0 with
          | none => (gap ++ word, true, after)
          | some (breaks, rest, column) =>
            let next : Place := ⟨rest, column, true⟩
            if !inFlow && column < least then (gap ++ word, true, after)
            else
              match takeWords inFlow least fuel (foldedBreaks c breaks) next with
              | ([], _, _) => (gap ++ word, true, after)
              | (more, _, p) => (gap ++ word ++ more, false, p)
        else if spaces.isEmpty then (gap ++ word, true, after)
        else
          let (more, oneLine, p) := takeWords inFlow least fuel spaces after
          (gap ++ word ++ more, oneLine, p)
      | [] => (gap ++ word, true, after)

def plain? (inFlow : Bool) (least : Nat) (p : Place) : Option (Atom × Place) :=
  if startsPlain inFlow p.rest then
    let (t, oneLine, p) := takeWords inFlow least (p.rest.length + 1) [] p
    (resolve? t).map fun node => (⟨node, oneLine⟩, p)
  else none

def escapes : List (Char × Char) :=
  [('0', '\x00'), ('a', '\x07'), ('b', '\x08'), ('t', '\t'), ('\t', '\t'), ('n', '\n'), ('v', '\x0b'),
    ('f', '\x0c'), ('r', '\r'), ('e', '\x1b'), (' ', ' '), ('"', '"'), ('\\', '\\'), ('/', '/'),
    ('N', '\u0085'), ('_', '\u00a0'), ('L', '\u2028'), ('P', '\u2029')]

def escapeLength? (c : Char) : Option Nat :=
  if c = 'x' then some 2 else if c = 'u' then some 4 else if c = 'U' then some 8 else none

def isHex (c : Char) : Bool := c.isDigit || ('a' ≤ c && c ≤ 'f') || ('A' ≤ c && c ≤ 'F')

def escape? (t : Text) : Option (Char × Nat) :=
  match t with
  | [] => none
  | c :: rest =>
    match escapes.lookup c with
    | some d => some (d, 1)
    | none =>
      match escapeLength? c with
      | none => none
      | some length =>
        let digits := rest.take length
        if digits.length = length && digits.all isHex && (valueIn 16 digits).isValidChar then
          some (Char.ofNat (valueIn 16 digits), length + 1)
        else none

def takeQuotedGap? (p : Place) : Option (Text × Bool × Place) :=
  let isSpace (c : Char) := c = ' ' || c = '\t'
  let spaces := p.rest.takeWhile isSpace
  match p.rest.dropWhile isSpace with
  | [] => none
  | c :: rest =>
    if isBreak c then
      (takeBreaks? isSpace rest 0).map fun (breaks, rest, column) =>
        (foldedBreaks c breaks, false, ⟨rest, column, false⟩)
    else some (spaces, true, ⟨c :: rest, p.column + spaces.length, false⟩)

def takeQuoted? (quote : Char) : Nat → Place → Option (Text × Bool × Place)
  | 0, _ => none
  | fuel + 1, p =>
    let continued (t : Text) (oneLine : Bool) (p : Place) : Option (Text × Bool × Place) :=
      (takeQuoted? quote fuel p).map fun (more, line, p) => (t ++ more, oneLine && line, p)
    match p.rest with
    | [] => none
    | c :: rest =>
      if c = quote then
        if quote = '\'' ∧ rest.head? = some '\'' then continued ['\''] true (p.advance 2 false)
        else some ([], true, p.advance 1 false)
      else if c = '\\' ∧ quote = '"' then
        match rest with
        | d :: lines =>
          if isBreak d then
            match takeBreaks? (fun c => c = ' ' || c = '\t') lines 0 with
            | some (breaks, rest, column) => continued breaks false ⟨rest, column, false⟩
            | none => none
          else
            match escape? rest with
            | some (d, length) => continued [d] true (p.advance (length + 1) false)
            | none => none
        | [] => none
      else if isGap c then
        match takeQuotedGap? p with
        | some (gap, oneLine, after) => continued gap oneLine after
        | none => none
      else continued [c] true (p.advance 1 false)

def quoted? (p : Place) : Option (Atom × Place) :=
  match p.rest with
  | c :: _ =>
    if c = '"' ∨ c = '\'' then
      (takeQuoted? c (p.rest.length + 1) (p.advance 1 false)).map fun (t, oneLine, p) =>
        (⟨.scalar (.text t), oneLine⟩, p)
    else none
  | [] => none

def isNameChar (c : Char) : Bool := c.isAlphanum || c = '-' || c = '_'

def takeName? (p : Place) : Option (Text × Place) :=
  let inside := p.rest.drop 1
  let name := inside.takeWhile isNameChar
  let after := inside.dropWhile isNameChar
  if name.isEmpty || !(startsGap after || after.head?.any fun c => "?:,]\x7d%@\x60".toList.contains c) then none
  else some (name, p.advance (name.length + 1) false)

def takeAnchor? (p : Place) : Option (Option Text × Place) :=
  if p.isNext '&' then (takeName? p).map fun (name, p) => (some name, p.skip) else some (none, p)

def reference? (p : Place) : Option (Atom × Place) :=
  if p.isNext '*' then (takeName? p).map fun (name, p) => (⟨.reference name, true⟩, p) else none

def scalar? (inFlow : Bool) (least : Nat) (p : Place) : Option (Atom × Place) :=
  (quoted? p).or ((reference? p).or (plain? inFlow least p))

end Flipbook.Yaml
