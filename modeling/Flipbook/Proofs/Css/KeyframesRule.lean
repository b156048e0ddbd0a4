import Flipbook.Proofs.Css.BraceDepth
import Flipbook.Proofs.Css.KeyframesHeader

namespace Flipbook.Css

open Text

def unclosedBody (rest : Text) : Text := if rest.getLast? = some '}' then rest.dropLast else rest

/-- The rule at the head of a text, and the characters that belong to it. -/
inductive RuleText (t : Text) (rule : KeyframesRule) (lexeme : Text) : Prop
  | closed {header after : Text} (isHeader : HeaderText rule.name header)
      (shape : t = header ++ (rule.body ++ '}' :: after)) (block : ClosedBlock ('{' :: rule.body ++ ['}']))
      (whole : lexeme = header ++ rule.body ++ ['}'])
  | unclosed {header rest : Text} (isHeader : HeaderText rule.name header) (shape : t = header ++ rest)
      (never : NeverEven ('{' :: rest)) (body : rule.body = unclosedBody rest) (whole : lexeme = t)

theorem keyframesRule_eq (t : Text) : keyframesRule t = (keyframesHeader? t).map fun (name, header, rest) =>
    match closeBrace? 0 rest with
    | some (body, _) => (⟨name, body⟩, header ++ body ++ ['}'])
    | none => (⟨name, unclosedBody rest⟩, header ++ rest) := by
  unfold keyframesRule
  cases keyframesHeader? t with
  | none => rfl
  | some read =>
    obtain ⟨name, header, rest⟩ := read
    simp only [Option.bind_eq_bind, Option.bind_some, Option.map_some]
    cases closeBrace? 0 rest <;> rfl

theorem keyframesRule_eq_none {t : Text} : keyframesRule t = none ↔ keyframesHeader? t = none := by
  rw [keyframesRule_eq, Option.map_eq_none_iff]

theorem keyframesRule_eq_some {t lexeme : Text} {rule : KeyframesRule} :
    keyframesRule t = some (rule, lexeme) ↔ RuleText t rule lexeme := by
  rw [keyframesRule_eq, Option.map_eq_some_iff]
  constructor
  · rintro ⟨⟨name, header, rest⟩, read, same⟩
    obtain ⟨rfl, isHeader⟩ := keyframesHeader?_eq_some.mp read
    cases closed : closeBrace? 0 rest with
    | some found =>
      obtain ⟨body, after⟩ := found
      obtain ⟨rfl, block⟩ := closeBrace?_eq_some_iff.mp closed
      simp only [closed] at same
      cases same
      exact .closed isHeader rfl block rfl
    | none =>
      simp only [closed] at same
      cases same
      exact .unclosed isHeader rfl (closeBrace?_eq_none_iff.mp closed) rfl rfl
  · intro text
    obtain ⟨name, body⟩ := rule
    cases text with
    | closed isHeader shape block whole =>
      refine ⟨_, keyframesHeader?_eq_some.mpr ⟨shape, isHeader⟩, ?_⟩
      simp only [closeBrace?_eq_some_iff.mpr ⟨rfl, block⟩, whole]
    | unclosed isHeader shape never read whole =>
      refine ⟨_, keyframesHeader?_eq_some.mpr ⟨shape, isHeader⟩, ?_⟩
      simp only at read
      simp only [closeBrace?_eq_none_iff.mpr never, read, whole, ← shape]

theorem keyframesRule_faithful : keyframesRule.Faithful := by
  intro t rule lexeme read
  cases keyframesRule_eq_some.mp read with
  | @closed header after isHeader shape block whole =>
    refine ⟨by simp [whole], after, ?_⟩
    rw [shape, whole]
    simp
  | unclosed isHeader shape never body whole =>
    obtain ⟨lead, rfl, -⟩ := isHeader.shape
    exact ⟨by simp [whole, shape], [], by rw [whole, List.append_nil]⟩

theorem keyframesRule_of_ne {c : Char} (noAt : c ≠ '@') (rest : Text) : keyframesRule (c :: rest) = none := by
  have missing : after? ['@'] (c :: rest) = none := by
    simp [after?, Ne.symm noAt]
  unfold keyframesRule keyframesHeader?
  rw [missing]
  rfl

end Flipbook.Css
