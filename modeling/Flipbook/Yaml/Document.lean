import Flipbook.Yaml.Atom

namespace Flipbook.Yaml

open Text

abbrev Reading (α : Type) := Option (α × Place)

mutual

def flowValue? : Nat → Place → Reading Atom
  | 0, _ => none
  | fuel + 1, p =>
    if p.isEnd || p.isIndicator '-' then none
    else if p.isNext '&' then
      match takeAnchor? p with
      | none => none
      | some (name, p) =>
        if p.isNext ',' || p.isNext ']' || p.isNext '}' then some (⟨.named name (.scalar .null), false⟩, p)
        else (flowValue? fuel p).map fun (atom, p) => (⟨atom.node.named name, false⟩, p)
    else if p.isNext '[' then
      (flowList? fuel true [] (p.advance 1 false)).map fun (items, p) => (⟨.list items, false⟩, p)
    else if p.isNext '{' then
      (flowMapping? fuel true [] (p.advance 1 false)).map fun (entries, p) => (⟨.mapping entries, false⟩, p)
    else scalar? true 0 p

def flowAnnounced? : Nat → Char → Place → Reading Node
  | 0, _, _ => none
  | fuel + 1, closing, p =>
    let p := (p.advance 1 false).skip
    if p.isNext ',' || p.isNext closing then some (.scalar .null, p)
    else (flowValue? fuel p).map fun (atom, p) => (atom.node, p)

def flowList? : Nat → Bool → List Node → Place → Reading (List Node)
  | 0, _, _, _ => none
  | fuel + 1, first, items, p =>
    let p := p.skip
    if p.isNext ']' then some (items, p.advance 1 false)
    else
      match if first then some p else if p.isNext ',' then some (p.advance 1 false).skip else none with
      | none => none
      | some p =>
        if p.isNext ']' && !first then some (items, p.advance 1 false)
        else
          match flowValue? fuel p with
          | none => none
          | some (atom, after) =>
            let next := after.skip
            if next.isNext ':' then
              match atom.key?, flowAnnounced? fuel ']' next with
              | some key, some (value, p) =>
                if next.fresh then none else flowList? fuel false (items ++ [.mapping [(key, value)]]) p
              | _, _ => none
            else flowList? fuel false (items ++ [atom.node]) next

def flowMapping? : Nat → Bool → List (SettingName × Node) → Place → Reading (List (SettingName × Node))
  | 0, _, _, _ => none
  | fuel + 1, first, entries, p =>
    let p := p.skip
    if p.isNext '}' then some (entries, p.advance 1 false)
    else
      match if first then some p else if p.isNext ',' then some (p.advance 1 false).skip else none with
      | none => none
      | some p =>
        if p.isNext '}' && !first then some (entries, p.advance 1 false)
        else
          match flowValue? fuel p with
          | none => none
          | some (atom, after) =>
            let next := after.skip
            if next.isNext ':' then
              match atom.key?, flowAnnounced? fuel '}' next with
              | some key, some (value, p) =>
                if next.fresh then none else flowMapping? fuel false (entries ++ [(key, value)]) p
              | _, _ => none
            else
              match atom.node with
              | .scalar value =>
                match keyName? value with
                | some key => flowMapping? fuel false (entries ++ [(key, .scalar .null)]) next
                | none => none
              | _ => none

end

def nextLine? (p : Place) : Option Place :=
  let next := p.skip
  if next.isEnd || next.fresh then some next else none

def blockAtom? (parent : Int) (p : Place) : Reading Atom :=
  if p.isNext '[' || p.isNext '{' then flowValue? (4 * p.rest.length + 4) p
  else scalar? false (parent + 1).toNat p

def keyColon? (p : Place) : Option Place :=
  let next := Place.skip { p with fresh := false }
  if !next.fresh && next.isIndicator ':' then some next else none

def blockKey? (p : Place) : Reading SettingName :=
  match blockAtom? p.column p with
  | none => none
  | some (atom, after) =>
    match atom.key?, keyColon? after with
    | some key, some colon => some (key, colon)
    | _, _ => none

mutual

def blockValue? : Nat → Int → Place → Reading Node
  | 0, _, _ => none
  | fuel + 1, parent, p =>
    if p.isIndicator '-' then
      if p.fresh then
        (blockList? fuel p.column false [] p).map fun (items, p) => (.list items, p)
      else none
    else
      match blockAtom? parent p with
      | none => none
      | some (atom, after) =>
        match keyColon? after with
        | none => some (atom.node, after)
        | some _ =>
          if p.fresh then
            (blockMapping? fuel p.column [] p).map fun (entries, p) => (.mapping entries, p)
          else none

def blockList? : Nat → Nat → Bool → List Node → Place → Reading (List Node)
  | 0, _, _, _, _ => none
  | fuel + 1, column, sharesColumn, items, p =>
    let item :=
      match takeAnchor? (p.advance 1 true).skip with
      | none => none
      | some (name, inside) =>
        if inside.isEnd || inside.column ≤ column then some (Node.named name (.scalar .null), inside)
        else
          match blockValue? fuel column inside with
          | some (value, p) => (nextLine? p).map fun p => (value.named name, p)
          | none => none
    match item with
    | none => none
    | some (value, p) =>
      if p.isEnd || p.column < column then some (items ++ [value], p)
      else if column < p.column then none
      else if p.isIndicator '-' then blockList? fuel column sharesColumn (items ++ [value]) p
      else if sharesColumn then some (items ++ [value], p)
      else none

def blockMapping? : Nat → Nat → List (SettingName × Node) → Place → Reading (List (SettingName × Node))
  | 0, _, _, _ => none
  | fuel + 1, column, entries, p =>
    match blockKey? p with
    | none => none
    | some (key, colon) =>
      let entry :=
        match takeAnchor? (colon.advance 1 false).skip with
        | none => none
        | some (name, inside) =>
          if inside.isEnd then some (Node.named name (.scalar .null), inside)
          else if !inside.fresh || column < inside.column then
            match blockValue? fuel column inside with
            | some (value, p) => (nextLine? p).map fun p => (value.named name, p)
            | none => none
          else if inside.column = column && inside.isIndicator '-' then
            (blockList? fuel column true [] inside).map fun (items, p) => (Node.named name (.list items), p)
          else some (Node.named name (.scalar .null), inside)
      match entry with
      | none => none
      | some (value, p) =>
        let entries := entries ++ [(key, value)]
        if p.isEnd || p.column < column then some (entries, p)
        else if column < p.column then none
        else blockMapping? fuel column entries p

end

def isAllowed (c : Char) : Bool :=
  let n := c.toNat
  c = '\t' || c = '\n' || c = '\r' || (0x20 ≤ n && n ≤ 0x7e) || n = 0x85 || (0xa0 ≤ n && n ≤ 0xfffd)
    || 0x10000 ≤ n

def opened (p : Place) : Place := if p.isMark '-' then (p.advance 3 false).skip else p

def isDone : Nat → Place → Bool
  | 0, _ => false
  | fuel + 1, p =>
    let p := p.skip
    p.rest.isEmpty || (p.isMark '.' && isDone fuel (p.advance 3 true))

def node? (t : Text) : Option Node :=
  let t := (after? ['\ufeff'] t).getD t
  let start := Place.skip ⟨t, 0, true⟩
  if !t.all isAllowed || start.isMark '.' then none
  else
    let fuel := 4 * t.length + 4
    match takeAnchor? (opened start) with
    | none => none
    | some (name, p) =>
      if p.isEnd then if isDone fuel p then some (.named name (.scalar .null)) else none
      else
        match blockValue? fuel (-1) p with
        | some (node, p) =>
          match nextLine? p with
          | some p => if isDone fuel p then some (node.named name) else none
          | none => none
        | none => none

instance : Library where
  document t :=
    match node? t with
    | some node => node.document
    | none => .error .noDocument
  early? _ := none

end Flipbook.Yaml
