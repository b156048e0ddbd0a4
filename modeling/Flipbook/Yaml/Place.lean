import Flipbook.Text.Basic

namespace Flipbook.Yaml

structure Place where
  rest : Text
  column : Nat
  fresh : Bool

def isBreak (c : Char) : Bool :=
  c = '\n' || c = '\r' || c = '\u0085' || c = '\u2028' || c = '\u2029'

def isGap (c : Char) : Bool := c = ' ' || c = '\t' || isBreak c

def startsGap (t : Text) : Bool :=
  match t with
  | c :: _ => isGap c
  | [] => true

def skipFrom (comment : Bool) (column : Nat) (fresh : Bool) : Text → Place
  | [] => ⟨[], column, fresh⟩
  | c :: rest =>
    if isBreak c then skipFrom false 0 true rest
    else if comment || c = '#' then skipFrom true (column + 1) fresh rest
    else if c = ' ' then skipFrom false (column + 1) fresh rest
    else ⟨c :: rest, column, fresh⟩

namespace Place

def skip (p : Place) : Place := skipFrom false p.column p.fresh p.rest

def advance (p : Place) (count : Nat) (fresh : Bool) : Place := ⟨p.rest.drop count, p.column + count, fresh⟩

def isMark (p : Place) (mark : Char) : Bool :=
  p.column = 0 && p.rest.take 3 = [mark, mark, mark] && startsGap (p.rest.drop 3)

def isEnd (p : Place) : Bool := p.rest.isEmpty || p.isMark '-' || p.isMark '.'

def isIndicator (p : Place) (c : Char) : Bool :=
  match p.rest with
  | d :: rest => d = c && startsGap rest
  | [] => false

def isNext (p : Place) (c : Char) : Bool := p.rest.head? = some c

end Place
end Flipbook.Yaml
