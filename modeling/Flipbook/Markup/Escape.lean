import Flipbook.Text.Scan

namespace Flipbook.Markup

open Text

def escapeChar (c : Char) : Text :=
  if c = '&' then ['&', 'a', 'm', 'p', ';']
  else if c = '<' then ['&', 'l', 't', ';']
  else if c = '"' then ['&', 'q', 'u', 'o', 't', ';']
  else [c]

def escape (t : Text) : Text := t.flatMap escapeChar

def reference : Pattern Char := fun t =>
  ['&', '<', '"'].findSome? fun c => (after? (escapeChar c) t).map fun _ => (c, escapeChar c)

def unescape (t : Text) : Text :=
  (reference.scan t).map fun
    | .found c _ => c
    | .plain c => c

theorem reference_faithful : reference.Faithful := by
  intro t c lexeme h
  obtain ⟨d, -, found⟩ := List.exists_of_findSome?_eq_some h
  obtain ⟨rest, cut, pair⟩ := Option.map_eq_some_iff.mp found
  cases pair
  exact ⟨by unfold escapeChar; repeat' split
            all_goals simp, rest, after?_eq_some.mp cut⟩

theorem unescape_append {c : Char} {lexeme rest : Text}
    (h : reference (lexeme ++ rest) = some (c, lexeme)) : unescape (lexeme ++ rest) = c :: unescape rest := by
  simp [unescape, Pattern.scan_of_some reference_faithful h rfl]

theorem unescape_cons {c : Char} {rest : Text} (h : reference (c :: rest) = none) :
    unescape (c :: rest) = c :: unescape rest := by
  simp [unescape, Pattern.scan_of_none h]

theorem unescape_escapeChar_append (c : Char) (rest : Text) :
    unescape (escapeChar c ++ rest) = c :: unescape rest := by
  by_cases amp : c = '&'
  · subst amp; exact unescape_append rfl
  by_cases less : c = '<'
  · subst less; exact unescape_append rfl
  by_cases quote : c = '"'
  · subst quote; exact unescape_append rfl
  rw [show escapeChar c = [c] by simp [escapeChar, amp, less, quote]]
  exact unescape_cons (by simp [reference, escapeChar, after?, Ne.symm amp])

theorem unescape_escape (t : Text) : unescape (escape t) = t := by
  induction t with
  | nil => rfl
  | cons c rest ih =>
    rw [show escape (c :: rest) = escapeChar c ++ escape rest from rfl, unescape_escapeChar_append, ih]

end Flipbook.Markup
