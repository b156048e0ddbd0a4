import Mathlib.Data.List.Infix
import Flipbook.Css.Animation
import Flipbook.Proofs.Css.PlainDecimal
import Flipbook.Proofs.Text.Joined

namespace Flipbook.Css

open Text

def marks : List Text := ["/*".toList, "<![CDATA[".toList, "]]>".toList]

/-- No comment begins in the text, and no mark of character data stands in it. -/
def Unmarked (t : Text) : Prop := ∀ mark ∈ marks, ¬ mark <:+: t

/-- A part of a style that contains nothing of what gives a style its shape. -/
structure Component (t : Text) : Prop where
  braces : ∀ c ∈ t, c ≠ '{' ∧ c ≠ '}' ∧ c ≠ '@'
  unmarked : Unmarked t

instance (t : Text) : Decidable (Component t) :=
  decidable_of_iff ((t.all fun c => c ≠ '{' ∧ c ≠ '}' ∧ c ≠ '@') ∧ ∀ mark ∈ marks, ¬ mark <:+: t)
    ⟨fun ⟨braces, unmarked⟩ => ⟨by simpa using braces, unmarked⟩,
      fun component => ⟨by simpa using component.braces, component.unmarked⟩⟩

structure Declaration where
  name : Text
  value : Text

structure Declaration.Legible (d : Declaration) : Prop where
  name_ne_nil : d.name ≠ []
  name_trimmed : Trimmed d.name
  name_free : ∀ c ∈ d.name, c ≠ ':' ∧ c ≠ ';'
  value_trimmed : Trimmed d.value
  value_free : ∀ c ∈ d.value, c ≠ ';'

instance (d : Declaration) : Decidable d.Legible :=
  decidable_of_iff
    (d.name ≠ [] ∧ Trimmed d.name ∧ (d.name.all fun c => c ≠ ':' ∧ c ≠ ';') ∧ Trimmed d.value ∧
      (d.value.all fun c => c ≠ ';'))
    ⟨fun ⟨nonempty, name, free, value, free'⟩ => ⟨nonempty, name, by simpa using free, value, by simpa using free'⟩,
      fun legible => ⟨legible.name_ne_nil, legible.name_trimmed, by simpa using legible.name_free,
        legible.value_trimmed, by simpa using legible.value_free⟩⟩

structure Declaration.Valid (d : Declaration) : Prop where
  name_ne_nil : d.name ≠ []
  name_component : Component d.name
  name_trimmed : Trimmed d.name
  name_free : ∀ c ∈ d.name, c ≠ ':' ∧ c ≠ ';'
  value_component : Component d.value
  value_trimmed : Trimmed d.value
  value_free : ∀ c ∈ d.value, c ≠ ';'
  named : d.name = "animation-name".toList → d.value ≠ [] → layers d.value ≠ []

instance (d : Declaration) : Decidable d.Valid :=
  decidable_of_iff
    (d.name ≠ [] ∧ Component d.name ∧ Trimmed d.name ∧ (d.name.all fun c => c ≠ ':' ∧ c ≠ ';') ∧
      Component d.value ∧ Trimmed d.value ∧ (d.value.all fun c => c ≠ ';') ∧
      (d.name = "animation-name".toList → d.value ≠ [] → layers d.value ≠ []))
    ⟨fun ⟨nonempty, name, trimmed, free, value, trimmed', free', named⟩ =>
        ⟨nonempty, name, trimmed, by simpa using free, value, trimmed', by simpa using free', named⟩,
      fun valid => ⟨valid.name_ne_nil, valid.name_component, valid.name_trimmed, by simpa using valid.name_free,
        valid.value_component, valid.value_trimmed, by simpa using valid.value_free, valid.named⟩⟩

theorem Declaration.Valid.legible {d : Declaration} (valid : d.Valid) : d.Legible :=
  ⟨valid.name_ne_nil, valid.name_trimmed, valid.name_free, valid.value_trimmed, valid.value_free⟩

def Declaration.text (gap : Text) (d : Declaration) : Text :=
  d.name ++ ':' :: gap ++ d.value ++ ';' :: gap

def declarationsText (gap : Text) (ds : List Declaration) : Text := gap ++ ds.flatMap (Declaration.text gap)

def declared (ds : List Declaration) : Properties := .ofList (ds.map fun d => (d.name, d.value))

section Reading

variable {gap : Text}

theorem ne_of_isBlank {c other : Char} (blank : isBlank c) (solid : isBlank other = false) : c ≠ other := by
  rintro rfl
  rw [blank] at solid
  cases solid

theorem declaration?_blank (blank : ∀ c ∈ gap, isBlank c) : declaration? gap = none := by
  have noColon : cutAt? ':' gap = none := by
    cases cut : cutAt? ':' gap with
    | none => rfl
    | some found =>
      obtain ⟨shape, _⟩ := cutAt?_eq_some.mp cut
      have colon : ':' ∈ gap := by rw [shape]; simp
      exact absurd (blank ':' colon) (by decide)
  unfold declaration?
  rw [noColon]
  rfl

theorem declaration?_text (blank : ∀ c ∈ gap, isBlank c) {d : Declaration} (legible : d.Legible) :
    declaration? (gap ++ (d.name ++ ':' :: (gap ++ d.value))) = some (d.name, d.value) := by
  have noColon : ':' ∉ gap ++ d.name := by
    intro member
    rcases List.mem_append.mp member with member | member
    · exact absurd (blank ':' member) (by decide)
    · exact (legible.name_free ':' member).1 rfl
  have cut : cutAt? ':' (gap ++ (d.name ++ ':' :: (gap ++ d.value))) = some (gap ++ d.name, gap ++ d.value) :=
    cutAt?_eq_some.mpr ⟨by simp, noColon⟩
  have name : trim (gap ++ d.name) = d.name := by
    have around := trim_around blank legible.name_trimmed (List.forall_mem_nil _)
    rwa [List.append_nil] at around
  have value : trim (gap ++ d.value) = d.value := by
    have around := trim_around blank legible.value_trimmed (List.forall_mem_nil _)
    rwa [List.append_nil] at around
  unfold declaration?
  rw [cut]
  simp only [Option.bind_eq_bind, Option.bind_some, name, value, List.isEmpty_iff, if_neg legible.name_ne_nil]

theorem filterMap_declaration? (blank : ∀ c ∈ gap, isBlank c) {ds : List Declaration}
    (legible : ∀ d ∈ ds, d.Legible) :
    (splitBy (· = ';') (declarationsText gap ds)).filterMap declaration? = ds.map fun d => (d.name, d.value) := by
  induction ds with
  | nil =>
    have free : ∀ c ∈ gap, (decide (c = ';')) = false :=
      fun c member => decide_eq_false (ne_of_isBlank (blank c member) (by decide))
    rw [declarationsText, List.flatMap_nil, List.append_nil, splitBy_of_free free, List.map_nil]
    simp [declaration?_blank blank]
  | cons d ds ih =>
    obtain ⟨first, later⟩ := List.forall_mem_cons.mp legible
    have others := ih later
    have shape : declarationsText gap (d :: ds) =
        (gap ++ (d.name ++ ':' :: (gap ++ d.value))) ++ ';' :: declarationsText gap ds := by
      simp [declarationsText, Declaration.text]
    have free : ∀ c ∈ gap ++ (d.name ++ ':' :: (gap ++ d.value)), (decide (c = ';')) = false := by
      intro c member
      refine decide_eq_false ?_
      simp only [List.mem_append, List.mem_cons] at member
      rcases member with member | member | rfl | member | member
      · exact ne_of_isBlank (blank c member) (by decide)
      · exact (first.name_free c member).2
      · decide
      · exact ne_of_isBlank (blank c member) (by decide)
      · exact first.value_free c member
    rw [shape, splitBy_cut free (by simp), List.filterMap_cons_some (declaration?_text blank first), others,
      List.map_cons]

theorem declarations_declarationsText (blank : ∀ c ∈ gap, isBlank c) {ds : List Declaration}
    (legible : ∀ d ∈ ds, d.Legible) : declarations (declarationsText gap ds) = declared ds := by
  rw [declarations, filterMap_declaration? blank legible, declared]

end Reading

inductive OffsetWord
  | start
  | finish
  | percent (whole fraction : Text)

namespace OffsetWord

def text : OffsetWord → Text
  | start => "from".toList
  | finish => "to".toList
  | percent whole [] => whole ++ ['%']
  | percent whole fraction => whole ++ '.' :: fraction ++ ['%']

def Valid : OffsetWord → Prop
  | percent whole fraction => (∀ c ∈ whole ++ fraction, isDigit c) ∧ whole ++ fraction ≠ [] ∧
      digitsValue (whole ++ fraction) ≤ 100 * pow10 fraction.length
  | _ => True

instance (offset : OffsetWord) : Decidable offset.Valid :=
  match offset with
  | .start | .finish => .isTrue trivial
  | .percent whole fraction =>
    decidable_of_iff ((whole ++ fraction).all isDigit ∧ whole ++ fraction ≠ [] ∧
      digitsValue (whole ++ fraction) ≤ 100 * pow10 fraction.length) (by simp only [Valid, List.all_eq_true])

def value : OffsetWord → Float
  | start => 0.0
  | finish => 1.0
  | percent whole fraction =>
    Decimal.toFloat false ⟨digitsValue (whole ++ fraction), -fraction.length⟩ / 100.0

end OffsetWord

structure StopText where
  offsets : List OffsetWord
  declarations : List Declaration

inductive Item
  | keyframes (name : Text) (stops : List StopText)
  | rule (selector : Text) (declarations : List Declaration)

structure StopText.Valid (stop : StopText) : Prop where
  nonempty : stop.offsets ≠ []
  offsets : ∀ offset ∈ stop.offsets, offset.Valid
  declarations : ∀ d ∈ stop.declarations, d.Valid

def Item.Valid : Item → Prop
  | .keyframes name stops => name ≠ [] ∧ (∀ c ∈ name, isNameChar c) ∧ ∀ stop ∈ stops, stop.Valid
  | .rule selector ds => Component selector ∧ (∃ c ∈ selector, isBlank c = false) ∧ ∀ d ∈ ds, d.Valid

instance (stop : StopText) : Decidable stop.Valid :=
  decidable_of_iff (stop.offsets ≠ [] ∧ (∀ offset ∈ stop.offsets, offset.Valid) ∧ ∀ d ∈ stop.declarations, d.Valid)
    ⟨fun ⟨nonempty, offsets, ds⟩ => ⟨nonempty, offsets, ds⟩,
      fun valid => ⟨valid.nonempty, valid.offsets, valid.declarations⟩⟩

instance (item : Item) : Decidable item.Valid :=
  match item with
  | .keyframes name stops =>
    decidable_of_iff (name ≠ [] ∧ name.all isNameChar ∧ ∀ stop ∈ stops, stop.Valid)
      (by simp only [Item.Valid, List.all_eq_true])
  | .rule selector ds =>
    decidable_of_iff (Component selector ∧ (selector.any fun c => !isBlank c) ∧ ∀ d ∈ ds, d.Valid)
      (by simp only [Item.Valid, List.any_eq_true, Bool.not_eq_true'])

def blockText (gap head body : Text) : Text := head ++ gap ++ '{' :: body ++ '}' :: gap

def offsetsText (gap : Text) (offsets : List OffsetWord) : Text :=
  joinWith (',' :: gap) (offsets.map OffsetWord.text)

def StopText.text (gap : Text) (stop : StopText) : Text :=
  blockText gap (offsetsText gap stop.offsets) (declarationsText gap stop.declarations)

def stopsText (gap : Text) (stops : List StopText) : Text := gap ++ stops.flatMap (StopText.text gap)

def Item.text (gap : Text) : Item → Text
  | .keyframes name stops => blockText gap ("@keyframes ".toList ++ name) (stopsText gap stops)
  | .rule selector ds => blockText gap selector (declarationsText gap ds)

/-- The style sheet, with the blanks `gap` between its parts. -/
def sheetText (gap : Text) (items : List Item) : Text := items.flatMap (Item.text gap)

theorem OffsetWord.percent_text {whole fraction : Text} (valid : (percent whole fraction).Valid) :
    ∃ lexeme, (percent whole fraction).text = lexeme ++ ['%'] ∧
      PlainText lexeme ⟨digitsValue (whole ++ fraction), -fraction.length⟩ := by
  obtain ⟨inside, nonempty, _⟩ := valid
  cases fraction with
  | nil =>
    rw [List.append_nil] at inside nonempty ⊢
    exact ⟨whole, rfl, .whole nonempty inside⟩
  | cons d fraction =>
    refine ⟨whole ++ '.' :: (d :: fraction), rfl, .pointed ?_ (by simp) ?_⟩
    · exact fun c member => inside c (List.mem_append_left _ member)
    · exact fun c member => inside c (List.mem_append_right _ member)

theorem OffsetWord.mem_text {offset : OffsetWord} (valid : offset.Valid) {c : Char} (member : c ∈ offset.text) :
    isDigit c ∨ c ∈ ['f', 'r', 'o', 'm', 't', '.', '%'] := by
  cases offset with
  | start =>
    change c ∈ ['f', 'r', 'o', 'm'] at member
    simp only [List.mem_cons, List.not_mem_nil, or_false] at member
    rcases member with rfl | rfl | rfl | rfl <;> simp
  | finish =>
    change c ∈ ['t', 'o'] at member
    simp only [List.mem_cons, List.not_mem_nil, or_false] at member
    rcases member with rfl | rfl <;> simp
  | percent whole fraction =>
    obtain ⟨lexeme, shape, plain⟩ := percent_text valid
    rw [shape] at member
    rcases List.mem_append.mp member with inside | last
    · rcases plain.char c inside with digit | rfl
      · exact .inl digit
      · simp
    · rw [List.mem_singleton.mp last]
      simp

theorem ne_of_mem_offsetsText {gap : Text} (blank : ∀ c ∈ gap, isBlank c) {offsets : List OffsetWord}
    (valid : ∀ offset ∈ offsets, offset.Valid) {c other : Char} (member : c ∈ offsetsText gap offsets)
    (noDigit : isDigit other = false) (noLetter : other ∉ ['f', 'r', 'o', 'm', 't', '.', '%', ','])
    (solid : isBlank other = false) : c ≠ other := by
  rcases mem_joinWith member with ⟨part, inside, stands⟩ | between
  · obtain ⟨offset, isOffset, rfl⟩ := List.mem_map.mp inside
    rcases OffsetWord.mem_text (valid offset isOffset) stands with digit | letter
    · exact ne_of_isDigit digit noDigit
    · rintro rfl
      exact noLetter (List.mem_append_left [','] letter)
  · rcases List.mem_cons.mp between with rfl | inGap
    · rintro rfl
      exact noLetter (by simp)
    · exact ne_of_isBlank (blank c inGap) solid

end Flipbook.Css
