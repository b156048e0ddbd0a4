import Flipbook.Proofs.Outcome
import Flipbook.Proofs.Text.Calls
import Flipbook.Proofs.Value.PathText

namespace Flipbook

open Text Css

def lowercaseHex : Text := "0123456789abcdef".toList

inductive ColorText : Text → Prop
  | mk {r r' g g' b b' : Char} (digits : ∀ c ∈ [r, r', g, g', b, b'], c ∈ lowercaseHex) :
      ColorText ['#', r, r', g, g', b, b']

def FunctionCall.text (call : FunctionCall) : Text :=
  call.name ++ '(' :: joinWith ", ".toList call.arguments ++ [')']

/-- What a call is made of that is found in a text. -/
structure FunctionCall.Legible (call : FunctionCall) : Prop where
  name_ne_nil : call.name ≠ []
  name_inside : ∀ c ∈ call.name, isNameChar c
  isEntry : ∀ argument ∈ call.arguments, IsEntry argument
  unclosed : ∀ argument ∈ call.arguments, ')' ∉ argument

def IsUnit (t : Text) : Prop := ∃ unit ∈ units, unit.toList = t

/-- What a value of the kind is made of. -/
def ValueKind.Legible : ValueKind → Prop
  | functions calls => calls ≠ [] ∧ ∀ call ∈ calls, call.Legible
  | measure _ unit => IsUnit unit
  | path tokens =>
    (∀ letter, .command letter ∈ tokens → isAsciiLetter letter ∧ isPathChar letter) ∧
      ∃ letter ∈ ['M', 'm', 'L', 'l'], .command letter ∈ tokens
  | _ => True

theorem legible_of_mem_functionCalls {t : Text} {call : FunctionCall} (member : call ∈ functionCalls t) :
    call.Legible := by
  obtain ⟨found, inside, rfl⟩ := List.mem_map.mp member
  have legible := Call.legible_of_mem_findAll found inside
  refine ⟨legible.name_ne_nil, legible.name_inside, fun argument => isEntry_of_mem_entries, ?_⟩
  intro argument isArgument closing
  exact legible.unclosed (mem_of_mem_trim (mem_of_mem_entries isArgument closing))

theorem isUnit_of_measure? {t : Text} {amount : Numeral} {unit : Text} (read : measure? t = some (amount, unit)) :
    IsUnit unit := by
  unfold measure? at read
  split at read
  · split at read
    · rename_i isUnit
      cases read
      simpa [IsUnit, List.any_eq_true] using isUnit
    · cases read
  · cases read

theorem legible_path {t : Text} (looks : looksLikePath t) : (ValueKind.path (pathTokens t)).Legible := by
  simp only [looksLikePath, Bool.and_eq_true, List.all_eq_true, List.any_eq_true] at looks
  obtain ⟨inside, letter, member, draws⟩ := looks
  constructor
  · intro letter isCommand
    obtain ⟨isLetter, stands⟩ := command_of_mem_pathTokens isCommand
    exact ⟨isLetter, inside letter (mem_trim_of_solid stands (isBlank_of_isAsciiLetter isLetter))⟩
  · have isMark : letter ∈ ['M', 'm', 'L', 'l'] := by simpa using draws
    refine ⟨letter, isMark, ?_⟩
    have plain : (['M', 'm', 'L', 'l'].all fun c => isAsciiLetter c && c ≠ 'e' && c ≠ 'E') = true := by decide
    have isPlain := List.all_eq_true.mp plain letter isMark
    simp only [Bool.and_eq_true, decide_eq_true_eq] at isPlain
    exact command_mem_pathTokens isPlain.1.1 isPlain.1.2 isPlain.2 (mem_of_mem_trim member)

theorem color?_eq_some {t : Text} {kind : ValueKind} (read : color? t = some kind) :
    ∃ red green blue, kind = .color red green blue := by
  unfold color? at read
  split at read
  · split at read
    all_goals cases read
    all_goals exact ⟨_, _, _, rfl⟩
  · cases read

theorem legible_classify (t : Text) : (classify t).kind.Legible := by
  unfold classify
  split
  · rename_i read
    obtain ⟨red, green, blue, rfl⟩ := color?_eq_some read
    exact True.intro
  · split
    · rename_i call calls found
      refine ⟨List.cons_ne_nil _ _, fun other member => ?_⟩
      rw [← found] at member
      exact legible_of_mem_functionCalls member
    · split
      · rename_i read
        exact isUnit_of_measure? read
      · split
        · exact True.intro
        · split
          · rename_i looks
            exact legible_path looks
          · exact True.intro

theorem color?_of_head {t : Text} (noSign : t.head? ≠ some '#') : color? t = none := by
  unfold color?
  split
  · exact absurd rfl noSign
  · rfl

theorem isBlank_of_mem_lowercaseHex {c : Char} (member : c ∈ lowercaseHex) : isBlank c = false := by
  have solid : lowercaseHex.all (!isBlank ·) = true := by decide
  simpa using List.all_eq_true.mp solid c member

theorem hexDigit?_of_mem_lowercaseHex {c : Char} (member : c ∈ lowercaseHex) : ∃ n, hexDigit? c = some n := by
  have digit : lowercaseHex.all (fun c => (hexDigit? c).isSome) = true := by decide
  exact Option.isSome_iff_exists.mp (List.all_eq_true.mp digit c member)

theorem classify_colorText {t : Text} (text : ColorText t) :
    ∃ red green blue, (classify t).kind = .color red green blue := by
  cases text with
  | @mk r r' g g' b b' digits =>
    have solid : ∀ c ∈ ['#', r, r', g, g', b, b'], isBlank c = false := by
      intro c member
      rcases List.mem_cons.mp member with rfl | member
      · decide
      · exact isBlank_of_mem_lowercaseHex (digits c member)
    have read (c : Char) (member : c ∈ [r, r', g, g', b, b']) := hexDigit?_of_mem_lowercaseHex (digits c member)
    obtain ⟨n₁, h₁⟩ := read r (by simp)
    obtain ⟨n₂, h₂⟩ := read r' (by simp)
    obtain ⟨n₃, h₃⟩ := read g (by simp)
    obtain ⟨n₄, h₄⟩ := read g' (by simp)
    obtain ⟨n₅, h₅⟩ := read b (by simp)
    obtain ⟨n₆, h₆⟩ := read b' (by simp)
    refine ⟨16 * n₁ + n₂, 16 * n₃ + n₄, 16 * n₅ + n₆, ?_⟩
    unfold classify
    rw [(trimmed_of_solid solid).trim_eq]
    simp [color?, h₁, h₂, h₃, h₄, h₅, h₆]

theorem FunctionCall.Legible.trimmed {call : FunctionCall} (legible : call.Legible) :
    call.text ≠ [] ∧ Trimmed call.text := by
  have solid : ∀ c ∈ call.name, isBlank c = false :=
    fun c member => isBlank_of_isNameChar (legible.name_inside c member)
  refine ⟨by simp [text], trimmed_append (trimmed_of_solid solid) legible.name_ne_nil ?_ (by simp)⟩
  exact trimmed_of_solid (by simp; decide)

theorem functionCalls_text {call : FunctionCall} (legible : call.Legible) (rest : Text) :
    functionCalls (call.text ++ rest) = call :: functionCalls rest := by
  have unclosed : ')' ∉ joinWith ", ".toList call.arguments := by
    intro closing
    rcases mem_joinWith closing with ⟨argument, member, inside⟩ | between
    · exact legible.unclosed argument member inside
    · simp at between
  have trimmed : trim (joinWith ", ".toList call.arguments) = joinWith ", ".toList call.arguments := by
    refine Trimmed.trim_eq (trimmed_joinWith (fun argument member => (legible.isEntry argument member).ne_nil) ?_)
    exact fun argument member => trimmed_of_solid (legible.isEntry argument member).solid
  have written : Call.Legible isNameChar ⟨call.name, joinWith ", ".toList call.arguments⟩ :=
    ⟨legible.name_ne_nil, legible.name_inside, unclosed⟩
  have found := Call.findFrom_call written (by decide) rest
  unfold functionCalls Call.findAll FunctionCall.text
  rw [List.append_assoc, List.singleton_append, found, List.map_cons, trimmed, entries_joinWith legible.isEntry]

theorem functionCalls_joinWith {calls : List FunctionCall} (legible : ∀ call ∈ calls, call.Legible) :
    functionCalls (joinWith [' '] (calls.map FunctionCall.text)) = calls := by
  induction calls with
  | nil => rfl
  | cons call calls ih =>
    have later := ih fun other member => legible other (List.mem_cons_of_mem _ member)
    have first := functionCalls_text (legible call List.mem_cons_self)
    cases calls with
    | nil =>
      have alone := first []
      rwa [List.append_nil] at alone
    | cons second calls =>
      have space (rest : Text) : functionCalls (' ' :: rest) = functionCalls rest := rfl
      rw [List.map_cons, List.map_cons, joinWith_char, first, space, ← List.map_cons, later]

theorem classify_callsText {calls : List FunctionCall} (legible : (ValueKind.functions calls).Legible) :
    (classify (joinWith [' '] (calls.map FunctionCall.text))).kind = .functions calls := by
  obtain ⟨nonempty, legible⟩ := legible
  have trimmed : Trimmed (joinWith [' '] (calls.map FunctionCall.text)) := by
    refine trimmed_joinWith ?_ ?_
    · exact List.forall_mem_map.mpr fun call member => (legible call member).trimmed.1
    · exact List.forall_mem_map.mpr fun call member => (legible call member).trimmed.2
  obtain ⟨call, calls, rfl⟩ := List.exists_cons_of_ne_nil nonempty
  have isLegible := legible call List.mem_cons_self
  have noSign : (joinWith [' '] ((call :: calls).map FunctionCall.text)).head? ≠ some '#' := by
    obtain ⟨c, name, shape⟩ := List.exists_cons_of_ne_nil isLegible.name_ne_nil
    have isName : isNameChar c := isLegible.name_inside c (by simp [shape])
    rw [List.map_cons, head?_joinWith isLegible.trimmed.1, FunctionCall.text, shape]
    rintro ⟨⟩
    cases isName
  unfold classify
  rw [trimmed.trim_eq, color?_of_head noSign, functionCalls_joinWith legible]

structure Plain (t : Text) : Prop where
  trimmed : Trimmed t
  noSign : '#' ∉ t
  uncalled : '(' ∉ t

namespace Plain

variable {t : Text}

theorem color?_eq (plain : Plain t) : color? t = none :=
  color?_of_head fun first => plain.noSign (List.mem_of_mem_head? first)

theorem functionCalls_eq (plain : Plain t) : functionCalls t = [] := by
  unfold functionCalls Call.findAll
  rw [Call.findFrom_eq_nil plain.uncalled]
  rfl

theorem kind_of_measure (plain : Plain t) {amount : Numeral} {unit : Text}
    (measured : measure? t = some (amount, unit)) : (classify t).kind = .measure amount unit := by
  unfold classify
  simp only [plain.trimmed.trim_eq, plain.color?_eq, plain.functionCalls_eq, measured]

theorem kind_of_number (plain : Plain t) (noUnit : measure? t = none) {amount : Numeral}
    (number : Numeral.ofText? t = some amount) : (classify t).kind = .number amount := by
  unfold classify
  simp only [plain.trimmed.trim_eq, plain.color?_eq, plain.functionCalls_eq, noUnit, number]

theorem kind_of_path (plain : Plain t) (noUnit : measure? t = none) (noNumber : Numeral.ofText? t = none)
    (looks : looksLikePath t) : (classify t).kind = .path (pathTokens t) := by
  unfold classify
  simp only [plain.trimmed.trim_eq, plain.color?_eq, plain.functionCalls_eq, noUnit, noNumber, looks, ↓reduceIte]

end Plain

theorem plain_of_class {t : Text} {p : Char → Bool} (inside : ∀ c ∈ t, p c) (trimmed : Trimmed t)
    (noSign : p '#' = false) (uncalled : p '(' = false) : Plain t := by
  refine ⟨trimmed, fun sign => ?_, fun opening => ?_⟩
  · rw [inside '#' sign] at noSign
    cases noSign
  · rw [inside '(' opening] at uncalled
    cases uncalled

def isMeasureChar (c : Char) : Bool := isDigit c || isAsciiLetter c || ['.', '-', '+', '%'].contains c

theorem isBlank_of_isMeasureChar {c : Char} (inside : isMeasureChar c) : isBlank c = false :=
  isBlank_eq_false_of (by decide +kernel) inside

theorem NumeralText.isMeasureChar {lexeme : Text} (text : NumeralText lexeme) : ∀ c ∈ lexeme, isMeasureChar c := by
  refine text.class_of_mem (fun c digit => ?_) ?_
  · unfold Flipbook.isMeasureChar
    rw [digit]
    rfl
  · exact List.all_eq_true.mp (by decide)

theorem IsUnit.isMeasureChar {unit : Text} (isUnit : IsUnit unit) : ∀ c ∈ unit, isMeasureChar c := by
  have all : (units.all fun unit => unit.toList.all Flipbook.isMeasureChar) = true := by decide +kernel
  obtain ⟨unit, member, rfl⟩ := isUnit
  exact List.all_eq_true.mp (List.all_eq_true.mp all unit member)

theorem IsUnit.endsNumeral {unit : Text} (isUnit : IsUnit unit) : EndsNumeral unit := by
  have all : (units.all fun unit => (unit.toList.head?.all fun c => !isDigit c && c ≠ '.') &&
      takeExponent unit.toList = (0, [], unit.toList)) = true := by decide +kernel
  obtain ⟨unit, member, rfl⟩ := isUnit
  have ends := List.all_eq_true.mp all unit member
  rw [Bool.and_eq_true, decide_eq_true_eq, Option.all_eq_true] at ends
  refine ⟨fun c first => ?_, fun c first => ?_, ends.2⟩
  · have here := ends.1 c first
    rw [Bool.and_eq_true] at here
    simpa using here.1
  · have here := ends.1 c first
    rw [Bool.and_eq_true] at here
    simpa using here.2

theorem plain_of_isMeasureChar {t : Text} (inside : ∀ c ∈ t, isMeasureChar c) : Plain t :=
  plain_of_class inside (trimmed_of_solid fun c member => isBlank_of_isMeasureChar (inside c member)) (by decide)
    (by decide)

theorem plain_measureText {lexeme unit : Text} (text : NumeralText lexeme) (isUnit : IsUnit unit) :
    Plain (lexeme ++ unit) := by
  refine plain_of_isMeasureChar fun c member => ?_
  exact (List.mem_append.mp member).elim (text.isMeasureChar c) (isUnit.isMeasureChar c)

theorem measure?_measureText {lexeme unit : Text} (text : NumeralText lexeme) (isUnit : IsUnit unit) :
    ∃ amount, measure? (lexeme ++ unit) = some (amount, unit) := by
  obtain ⟨amount, read⟩ := text.read?_complete isUnit.endsNumeral
  have known : (units.any (·.toList = unit)) = true := by simpa [IsUnit, List.any_eq_true] using isUnit
  refine ⟨amount, ?_⟩
  unfold measure?
  rw [(plain_measureText text isUnit).trimmed.trim_eq, read]
  exact if_pos known

theorem classify_measureText {lexeme unit : Text} (text : NumeralText lexeme) (isUnit : IsUnit unit) :
    ∃ amount, (classify (lexeme ++ unit)).kind = .measure amount unit := by
  obtain ⟨amount, measured⟩ := measure?_measureText text isUnit
  exact ⟨amount, (plain_measureText text isUnit).kind_of_measure measured⟩

theorem ofText?_numeralText {lexeme : Text} (text : NumeralText lexeme) :
    measure? lexeme = none ∧ ∃ amount, Numeral.ofText? lexeme = some amount := by
  have plain : Plain lexeme := plain_of_isMeasureChar text.isMeasureChar
  obtain ⟨amount, read⟩ := text.read?_complete .nil
  rw [List.append_nil] at read
  have noUnit : measure? lexeme = none := by
    unfold measure?
    rw [plain.trimmed.trim_eq, read]
    rfl
  refine ⟨noUnit, amount, ?_⟩
  unfold Numeral.ofText?
  rw [read]

theorem classify_numeralText {lexeme : Text} (text : NumeralText lexeme) :
    ∃ amount, (classify lexeme).kind = .number amount := by
  obtain ⟨noUnit, amount, number⟩ := ofText?_numeralText text
  exact ⟨amount, (plain_of_isMeasureChar text.isMeasureChar).kind_of_number noUnit number⟩

theorem NumeralText.isPathChar {lexeme : Text} (text : NumeralText lexeme) : ∀ c ∈ lexeme, isPathChar c := by
  refine text.class_of_mem (fun c digit => ?_) ?_
  · unfold Flipbook.isPathChar
    rw [digit, Bool.or_true]
    rfl
  · exact List.all_eq_true.mp (by decide)

theorem read?_joinWith {tokens : List PathToken} {texts : List Text}
    (written : List.Forall₂ PathToken.Written tokens texts) {letter : Char} (command : .command letter ∈ tokens) :
    Numeral.read? (joinWith [' '] texts) = none ∨
      ∃ value lexeme rest, Numeral.read? (joinWith [' '] texts) = some ⟨value, lexeme, ' ' :: rest⟩ := by
  cases written with
  | nil => cases command
  | @cons token text tokens texts first others =>
    cases first with
    | @command letter isLetter =>
      left
      cases texts <;> exact read?_of_isAsciiLetter isLetter _
    | @number lexeme _ value numeral =>
      right
      -- A number is not the only token, so a blank follows it.
      cases others with
      | nil =>
        rw [List.mem_singleton] at command
        cases command
      | @cons _ second _ texts =>
        obtain ⟨value', read⟩ := numeral.read?_complete (.space (joinWith [' '] (second :: texts)))
        rw [joinWith_char, read]
        exact ⟨value', text, _, rfl⟩

theorem classify_pathText {tokens : List PathToken} {texts : List Text} (legible : (ValueKind.path tokens).Legible)
    (written : List.Forall₂ PathToken.Written tokens texts) :
    ∃ read, (classify (joinWith [' '] texts)).kind = .path read ∧ List.Forall₂ PathToken.Alike tokens read := by
  obtain ⟨letters, letter, draws, command⟩ := legible
  have solid : ∀ text ∈ texts, text ≠ [] ∧ (∀ c ∈ text, isBlank c = false) ∧ ∀ c ∈ text, isPathChar c := by
    intro text member
    obtain ⟨token, inside, writes⟩ := exists_of_mem_forall₂ written member
    cases writes with
    | @command letter isLetter =>
      refine ⟨List.cons_ne_nil _ _, ?_, ?_⟩ <;> rw [List.forall_mem_singleton]
      · exact isBlank_of_isAsciiLetter isLetter
      · exact (letters letter inside).2
    | number numeral => exact ⟨numeral.ne_nil, numeral.isBlank_eq_false, numeral.isPathChar⟩
  have trimmed : Trimmed (joinWith [' '] texts) :=
    trimmed_joinWith (fun text member => (solid text member).1)
      fun text member => trimmed_of_solid (solid text member).2.1
  have inside : ∀ c ∈ joinWith [' '] texts, isPathChar c := by
    intro c member
    rcases mem_joinWith member with ⟨text, isText, stands⟩ | space
    · exact (solid text isText).2.2 c stands
    · rw [List.mem_singleton.mp space]
      decide
  have looks : looksLikePath (joinWith [' '] texts) := by
    obtain ⟨text, isText, writes⟩ := exists_of_mem_forall₂ (.flip written) command
    have stands : letter ∈ text := by
      cases writes
      exact List.mem_cons_self
    simp only [looksLikePath, trimmed.trim_eq, Bool.and_eq_true, List.all_eq_true, List.any_eq_true]
    exact ⟨inside, letter, mem_joinWith_of_mem isText stands, by simpa using draws⟩
  have plain : Plain (joinWith [' '] texts) := plain_of_class inside trimmed (by decide) (by decide)
  -- There is a command among the tokens, so a number at the beginning has a blank after it and not a unit.
  have unread : measure? (joinWith [' '] texts) = none ∧ Numeral.ofText? (joinWith [' '] texts) = none := by
    unfold measure? Numeral.ofText?
    rw [trimmed.trim_eq]
    rcases read?_joinWith written command with none | ⟨value, lexeme, rest, read⟩
    · rw [none]
      exact ⟨rfl, rfl⟩
    · rw [read]
      refine ⟨if_neg ?_, rfl⟩
      intro isUnit
      have unit : IsUnit (' ' :: rest) := by simpa [IsUnit, List.any_eq_true] using isUnit
      have notBlank := isBlank_of_isMeasureChar (unit.isMeasureChar ' ' List.mem_cons_self)
      cases notBlank
  exact ⟨_, plain.kind_of_path unread.1 unread.2 looks, pathTokens_joinWith written⟩

end Flipbook
