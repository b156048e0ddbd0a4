import Flipbook.Proofs.Number.NumeralText
import Flipbook.Proofs.Text.Digits
import Flipbook.Proofs.Text.Joined
import Flipbook.Value.Classify

namespace Flipbook

open Text Css

/-- Two tokens are the same command or two numbers. -/
inductive PathToken.Alike : PathToken → PathToken → Prop
  | command (letter : Char) : Alike (.command letter) (.command letter)
  | number (lexeme lexeme' : Text) (value value' : Numeral) : Alike (.number lexeme value) (.number lexeme' value')

inductive PathToken.Written : PathToken → Text → Prop
  | command {letter : Char} (isLetter : isAsciiLetter letter) : Written (.command letter) [letter]
  | number {lexeme written : Text} {value : Numeral} (numeral : NumeralText written) :
      Written (.number lexeme value) written

theorem isAsciiLetter_of_isDigit {c : Char} (digit : isDigit c) : isAsciiLetter c = false := by
  rcases isDigit_cases digit with ascii | ⟨wide, -⟩
  · simpa using of_ascii (p := fun c => !isAsciiLetter c) (by decide) ascii
  · have small (last : Char) (low : last.toNat < 128) : ¬ c ≤ last := fun bound =>
      absurd (Nat.lt_of_le_of_lt (UInt32.le_iff_toNat_le.mp bound) low) (Nat.not_lt.mpr wide)
    unfold isAsciiLetter
    simp [small 'z' (by decide), small 'Z' (by decide)]

theorem isDigit_of_isAsciiLetter {c : Char} (letter : isAsciiLetter c) : isDigit c = false := by
  by_contra digit
  rw [isAsciiLetter_of_isDigit (by simpa using digit)] at letter
  cases letter

theorem read?_of_isAsciiLetter {c : Char} (letter : isAsciiLetter c) (rest : Text) :
    Numeral.read? (c :: rest) = none := by
  have apart (other : Char) (noLetter : isAsciiLetter other = false) : c ≠ other := by
    rintro rfl
    rw [letter] at noLetter
    cases noLetter
  exact read?_eq_none (isDigit_of_isAsciiLetter letter) (apart '.' (by decide)) (apart '-' (by decide))
    (apart '+' (by decide)) rest

theorem NumeralText.isAsciiLetter_head {lexeme : Text} (text : NumeralText lexeme) :
    ∀ c ∈ lexeme.head?, isAsciiLetter c = false := by
  intro c first
  rcases text.head c first with digit | rfl | rfl
  · exact isAsciiLetter_of_isDigit digit
  · decide
  · decide

theorem command_of_mem_pathTokensAfter {skip : Nat} {t : Text} {letter : Char}
    (member : .command letter ∈ pathTokensAfter skip t) : isAsciiLetter letter ∧ letter ∈ t := by
  induction t generalizing skip with
  | nil => cases skip <;> cases member
  | cons c rest ih =>
    have later {skip : Nat} (member : .command letter ∈ pathTokensAfter skip rest) :
        isAsciiLetter letter ∧ letter ∈ c :: rest := (ih member).imp_right (List.mem_cons_of_mem c)
    cases skip with
    | succ skip => exact later member
    | zero =>
      rw [pathTokensAfter] at member
      split at member
      · rename_i isLetter
        rcases List.mem_cons.mp member with same | member
        · cases same
          exact ⟨isLetter, List.mem_cons_self⟩
        · exact later member
      · split at member
        · rcases List.mem_cons.mp member with same | member
          · cases same
          · exact later member
        · exact later member

theorem command_of_mem_pathTokens {t : Text} {letter : Char} (member : .command letter ∈ pathTokens t) :
    isAsciiLetter letter ∧ letter ∈ t := command_of_mem_pathTokensAfter member

theorem command_mem_pathTokensAfter {letter : Char} (isLetter : isAsciiLetter letter) (small : letter ≠ 'e')
    (capital : letter ≠ 'E') {skip : Nat} {t : Text} (member : letter ∈ t.drop skip) :
    .command letter ∈ pathTokensAfter skip t := by
  induction t generalizing skip with
  | nil => simp at member
  | cons c rest ih =>
    cases skip with
    | succ skip => exact ih member
    | zero =>
      rw [pathTokensAfter]
      split
      · rcases List.mem_cons.mp member with rfl | member
        · exact List.mem_cons_self
        · exact List.mem_cons_of_mem _ (ih member)
      · rename_i noLetter
        have inRest : letter ∈ rest := by
          refine (List.mem_cons.mp member).resolve_left ?_
          rintro rfl
          exact noLetter isLetter
        split
        · rename_i reading read
          -- No letter of the numeral is a command, so the letter stands after the numeral.
          have outside : letter ∉ reading.lexeme := by
            intro inside
            rcases char_of_read? read letter inside with digit | mark
            · rw [isDigit_of_isAsciiLetter isLetter] at digit
              cases digit
            · simp only [List.mem_cons, List.not_mem_nil, or_false] at mark
              rcases mark with rfl | rfl | rfl | rfl | rfl
              · cases isLetter
              · cases isLetter
              · cases isLetter
              · exact small rfl
              · exact capital rfl
          have whole := Numeral.lexeme_append_rest read
          refine List.mem_cons_of_mem _ (ih ?_)
          cases shape : reading.lexeme with
          | nil => exact inRest
          | cons d lexeme =>
            rw [shape] at whole outside
            have tail : lexeme ++ reading.rest = rest := (List.cons.inj whole).2
            rw [← tail, List.mem_append] at inRest
            rw [← tail, List.length_cons, Nat.add_sub_cancel, List.drop_left]
            exact inRest.resolve_left fun inside => outside (List.mem_cons_of_mem d inside)
        · exact ih inRest

theorem command_mem_pathTokens {t : Text} {letter : Char} (isLetter : isAsciiLetter letter) (small : letter ≠ 'e')
    (capital : letter ≠ 'E') (member : letter ∈ t) : .command letter ∈ pathTokens t := by
  have here : letter ∈ t.drop 0 := member
  exact command_mem_pathTokensAfter isLetter small capital here

theorem pathTokensAfter_eq (skip : Nat) (t : Text) : pathTokensAfter skip t = pathTokens (t.drop skip) := by
  induction t generalizing skip with
  | nil => cases skip <;> rfl
  | cons c rest ih =>
    cases skip with
    | zero => rfl
    | succ skip => exact ih skip

theorem pathTokens_space (rest : Text) : pathTokens (' ' :: rest) = pathTokens rest := by
  have noNumeral : Numeral.read? (' ' :: rest) = none :=
    read?_eq_none (by decide) (by decide) (by decide) (by decide) rest
  unfold pathTokens
  rw [pathTokensAfter, if_neg (by decide), noNumeral]

theorem pathTokens_written {token : PathToken} {written : Text} (writes : token.Written written) {rest : Text}
    (ends : EndsNumeral rest) :
    ∃ read, pathTokens (written ++ rest) = read :: pathTokens rest ∧ token.Alike read := by
  cases writes with
  | @command letter isLetter => exact ⟨.command letter, if_pos isLetter, .command letter⟩
  | @number lexeme _ value numeral =>
    obtain ⟨value', read⟩ := numeral.read?_complete ends
    obtain ⟨c, tail, rfl⟩ := List.exists_cons_of_ne_nil numeral.ne_nil
    refine ⟨.number (c :: tail) value', ?_, .number ..⟩
    have noLetter : ¬ isAsciiLetter c := by simp [numeral.isAsciiLetter_head c rfl]
    show pathTokensAfter 0 (c :: (tail ++ rest)) = _
    rw [List.cons_append] at read
    rw [pathTokensAfter, if_neg noLetter, read]
    simp [pathTokensAfter_eq]

theorem pathTokens_joinWith {tokens : List PathToken} {texts : List Text}
    (written : List.Forall₂ PathToken.Written tokens texts) :
    List.Forall₂ PathToken.Alike tokens (pathTokens (joinWith [' '] texts)) := by
  induction written with
  | nil => exact .nil
  | @cons token text tokens texts first others ih =>
    -- A token is followed by a blank or by nothing, so no number runs into the next one.
    cases texts with
    | nil =>
      obtain ⟨read, tokensRead, alike⟩ := pathTokens_written first .nil
      rw [List.append_nil] at tokensRead
      show List.Forall₂ _ _ (pathTokens text)
      rw [tokensRead]
      cases others
      exact .cons alike .nil
    | cons second texts =>
      obtain ⟨read, tokensRead, alike⟩ := pathTokens_written first (.space (joinWith [' '] (second :: texts)))
      rw [joinWith_char, tokensRead, pathTokens_space]
      exact .cons alike ih

end Flipbook
