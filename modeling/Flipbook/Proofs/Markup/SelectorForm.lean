import Flipbook.Markup.Selector
import Flipbook.Proofs.Text.Pieces
import Flipbook.Proofs.Text.Runs
import Mathlib.Data.List.Basic

namespace Flipbook.Markup

open Text

def IsTagName (name : Text) : Prop := ∃ c rest, name = c :: rest ∧ isAsciiLetter c ∧ ∀ d ∈ rest, isNameChar d

/-- The name behind a mark, which can also begin with an underscore. -/
def IsMarkedName (name : Text) : Prop :=
  ∃ c rest, name = c :: rest ∧ (isAsciiLetter c ∨ c = '_') ∧ ∀ d ∈ rest, isNameChar d

inductive Part
  | identifier (name : Text)
  | className (name : Text)
  deriving DecidableEq, Repr

namespace Part

def mark : Part → Char
  | identifier _ => '#'
  | className _ => '.'

def name : Part → Text
  | identifier name => name
  | className name => name

def text (part : Part) : Text := part.mark :: part.name

def identifier? : Part → Option Text
  | identifier name => some name
  | className _ => none

def className? : Part → Option Text
  | identifier _ => none
  | className name => some name

def of (entry : Char × Text) : Part := if entry.1 = '#' then identifier entry.2 else className entry.2

theorem of_entry (part : Part) : of (part.mark, part.name) = part := by cases part <;> rfl

theorem entry_of {entry : Char × Text} (isMark : entry.1 = '#' ∨ entry.1 = '.') :
    ((of entry).mark, (of entry).name) = entry := by
  obtain ⟨mark, name⟩ := entry
  rcases isMark with rfl | rfl <;> rfl

end Part

/-- A tag name, if there is one, and parts. -/
structure Form where
  tag : Option Text
  parts : List Part
  deriving DecidableEq, Repr

namespace Form

def text (form : Form) : Text := form.tag.getD [] ++ form.parts.flatMap Part.text

structure Valid (form : Form) : Prop where
  tag : ∀ name ∈ form.tag, IsTagName name
  parts : ∀ part ∈ form.parts, IsMarkedName part.name
  single : (form.parts.filterMap Part.identifier?).length ≤ 1

def selector (form : Form) : Selector where
  tag := form.tag
  id := (form.parts.filterMap Part.identifier?).head?
  classes := form.parts.filterMap Part.className?

end Form

theorem isTagName_iff {t : Text} : isTagName t ↔ IsTagName t := by
  constructor
  · intro holds
    cases t with
    | nil => cases holds
    | cons c rest =>
      obtain ⟨letter, others⟩ := Bool.and_eq_true_iff.mp holds
      exact ⟨c, rest, rfl, letter, List.all_eq_true.mp others⟩
  · rintro ⟨c, rest, rfl, letter, others⟩
    exact Bool.and_eq_true_iff.mpr ⟨letter, List.all_eq_true.mpr others⟩

theorem isMarkedName_iff {t : Text} : isMarkedName t ↔ IsMarkedName t := by
  constructor
  · intro holds
    cases t with
    | nil => cases holds
    | cons c rest =>
      obtain ⟨start, others⟩ := Bool.and_eq_true_iff.mp holds
      exact ⟨c, rest, rfl, by simpa using start, List.all_eq_true.mp others⟩
  · rintro ⟨c, rest, rfl, start, others⟩
    exact Bool.and_eq_true_iff.mpr ⟨by simpa using start, List.all_eq_true.mpr others⟩

def IsMark (c : Char) : Prop := c = '#' ∨ c = '.'

theorem not_isMark_of_isNameChar {c : Char} (nameChar : isNameChar c) : ¬IsMark c := by
  rintro (rfl | rfl)
  · exact absurd nameChar (by decide)
  · exact absurd nameChar (by decide)

theorem isNameChar_of_isAsciiLetter {c : Char} (letter : isAsciiLetter c) : isNameChar c := by
  unfold isNameChar isWord
  by_cases ascii : c.val < 128
  · rw [if_pos ascii, letter]
    rfl
  · -- no letter here is beyond ASCII
    exfalso
    unfold isAsciiLetter at letter
    simp only [Bool.or_eq_true, Bool.and_eq_true, decide_eq_true_eq, Char.le_def, UInt32.le_iff_toNat_le] at letter
    rw [UInt32.lt_iff_toNat_lt] at ascii
    have bounds : 'z'.val.toNat = 122 ∧ 'Z'.val.toNat = 90 ∧ (128 : UInt32).toNat = 128 := ⟨rfl, rfl, rfl⟩
    omega

theorem IsTagName.nameChars {name : Text} (isName : IsTagName name) : ∀ c ∈ name, isNameChar c := by
  obtain ⟨c, rest, rfl, letter, others⟩ := isName
  exact List.forall_mem_cons.mpr ⟨isNameChar_of_isAsciiLetter letter, others⟩

theorem IsMarkedName.nameChars {name : Text} (isName : IsMarkedName name) : ∀ c ∈ name, isNameChar c := by
  obtain ⟨c, rest, rfl, letter | rfl, others⟩ := isName
  · exact List.forall_mem_cons.mpr ⟨isNameChar_of_isAsciiLetter letter, others⟩
  · exact List.forall_mem_cons.mpr ⟨by decide, others⟩

theorem cutMarks_run {run : Text} (free : ∀ c ∈ run, ¬IsMark c) (rest : Text) :
    cutMarks (run ++ rest) = (run ++ (cutMarks rest).1, (cutMarks rest).2) := by
  induction run with
  | nil => rfl
  | cons c run ih =>
    obtain ⟨first, later⟩ := List.forall_mem_cons.mp free
    rw [List.cons_append, cutMarks, ih later]
    exact if_neg first

theorem cutMarks_mark {c : Char} (isMark : IsMark c) (rest : Text) :
    cutMarks (c :: rest) = ([], (c, (cutMarks rest).1) :: (cutMarks rest).2) := by
  rw [cutMarks]
  exact if_pos isMark

theorem cutMarks_parts {parts : List Part} (free : ∀ part ∈ parts, ∀ c ∈ part.name, ¬IsMark c) :
    cutMarks (parts.flatMap Part.text) = ([], parts.map fun part => (part.mark, part.name)) := by
  induction parts with
  | nil => rfl
  | cons part parts ih =>
    obtain ⟨first, later⟩ := List.forall_mem_cons.mp free
    have isMark : IsMark part.mark := by cases part <;> simp [IsMark, Part.mark]
    rw [List.flatMap_cons, Part.text, List.cons_append, cutMarks_mark isMark, cutMarks_run first, ih later]
    simp

theorem cutMarks_text {form : Form} (valid : form.Valid) :
    cutMarks form.text = (form.tag.getD [], form.parts.map fun part => (part.mark, part.name)) := by
  have free : ∀ c ∈ form.tag.getD [], ¬IsMark c := by
    intro c member
    cases tag : form.tag with
    | none =>
      rw [tag] at member
      cases member
    | some name =>
      rw [tag] at member
      exact not_isMark_of_isNameChar ((valid.tag name tag).nameChars c member)
  have names : ∀ part ∈ form.parts, ∀ c ∈ part.name, ¬IsMark c := fun part member c inside =>
    not_isMark_of_isNameChar ((valid.parts part member).nameChars c inside)
  rw [Form.text, cutMarks_run free, cutMarks_parts names, List.append_nil]

theorem cutMarks_sound (t : Text) : (∀ entry ∈ (cutMarks t).2, IsMark entry.1) ∧
    t = (cutMarks t).1 ++ (cutMarks t).2.flatMap fun (mark, name) => mark :: name := by
  induction t with
  | nil => exact ⟨List.forall_mem_nil _, rfl⟩
  | cons c rest ih =>
    obtain ⟨marks, joined⟩ := ih
    by_cases isMark : IsMark c
    · rw [cutMarks_mark isMark]
      refine ⟨List.forall_mem_cons.mpr ⟨isMark, marks⟩, ?_⟩
      rw [List.nil_append, List.flatMap_cons]
      exact congrArg (c :: ·) joined
    · have run := cutMarks_run (List.forall_mem_singleton.mpr isMark) rest
      rw [List.singleton_append] at run
      rw [run]
      exact ⟨marks, congrArg (c :: ·) joined⟩

def Form.ofCut (cut : Text × List (Char × Text)) : Form where
  tag := if cut.1.isEmpty then none else some cut.1
  parts := cut.2.map Part.of

theorem Form.ofCut_cutMarks {form : Form} (valid : form.Valid) : Form.ofCut (cutMarks form.text) = form := by
  obtain ⟨tag, parts⟩ := form
  rw [cutMarks_text valid, Form.ofCut]
  simp only [List.map_map]
  congr 1
  · cases tag with
    | none => rfl
    | some name =>
      obtain ⟨c, rest, rfl, -⟩ := valid.tag name rfl
      rfl
  · exact (List.map_congr_left fun part _ => part.of_entry).trans (List.map_id parts)

theorem Form.text_ofCut (t : Text) : (Form.ofCut (cutMarks t)).text = t := by
  obtain ⟨marks, joined⟩ := cutMarks_sound t
  rw [Form.text, Form.ofCut, List.flatMap_map]
  have tag : (if (cutMarks t).1.isEmpty then none else some (cutMarks t).1).getD [] = (cutMarks t).1 := by
    split
    · rename_i empty
      exact (List.isEmpty_iff.mp empty).symm
    · rfl
  have parts : ((cutMarks t).2.flatMap fun entry => (Part.of entry).text) =
      (cutMarks t).2.flatMap fun (mark, name) => mark :: name := by
    refine List.flatMap_congr fun entry member => ?_
    exact congrArg (fun entry => entry.1 :: entry.2) (Part.entry_of (marks entry member))
  rw [tag, parts, ← joined]

theorem Form.text_injective {form form' : Form} (valid : form.Valid) (valid' : form'.Valid)
    (same : form.text = form'.text) : form = form' := by
  rw [← Form.ofCut_cutMarks valid, same, Form.ofCut_cutMarks valid']

theorem identifiers_of (entries : List (Char × Text)) :
    (entries.map Part.of).filterMap Part.identifier? = (entries.filter (·.1 = '#')).map (·.2) := by
  induction entries with
  | nil => rfl
  | cons entry entries ih =>
    rw [List.map_cons, List.filterMap_cons, ih]
    by_cases isId : entry.1 = '#' <;> simp [Part.of, isId, Part.identifier?]

theorem classNames_of {entries : List (Char × Text)} (marks : ∀ entry ∈ entries, IsMark entry.1) :
    (entries.map Part.of).filterMap Part.className? = (entries.filter (·.1 = '.')).map (·.2) := by
  induction entries with
  | nil => rfl
  | cons entry entries ih =>
    obtain ⟨first, later⟩ := List.forall_mem_cons.mp marks
    rw [List.map_cons, List.filterMap_cons, ih later]
    rcases first with isId | isClass
    · simp [Part.of, isId, Part.className?]
    · simp [Part.of, isClass, Part.className?]

theorem Form.valid_ofCut {cut : Text × List (Char × Text)} (marks : ∀ entry ∈ cut.2, IsMark entry.1) :
    (Form.ofCut cut).Valid ↔ (cut.1 = [] ∨ IsTagName cut.1) ∧ (∀ entry ∈ cut.2, IsMarkedName entry.2) ∧
      ((cut.2.filter (·.1 = '#')).map (·.2)).length ≤ 1 := by
  have names : (∀ part ∈ cut.2.map Part.of, IsMarkedName part.name) ↔ ∀ entry ∈ cut.2, IsMarkedName entry.2 := by
    rw [List.forall_mem_map]
    refine forall₂_congr fun entry member => ?_
    rw [← congrArg Prod.snd (Part.entry_of (marks entry member))]
  have tag : (∀ name ∈ (Form.ofCut cut).tag, IsTagName name) ↔ cut.1 = [] ∨ IsTagName cut.1 := by
    unfold Form.ofCut
    cases cut.1 <;> simp
  rw [← identifiers_of, ← names, ← tag]
  exact ⟨fun valid => ⟨valid.tag, valid.parts, valid.single⟩, fun ⟨tag, parts, single⟩ => ⟨tag, parts, single⟩⟩

theorem refused_iff {t tag : Text} {marked : List (Char × Text)} :
    (t.isEmpty || !(tag.isEmpty || isTagName tag) || !marked.all (fun (_, name) => isMarkedName name)) = false ↔
      t ≠ [] ∧ (tag = [] ∨ IsTagName tag) ∧ ∀ entry ∈ marked, IsMarkedName entry.2 := by
  rw [Bool.or_eq_false_iff, Bool.or_eq_false_iff, Bool.not_eq_false', Bool.not_eq_false', Bool.or_eq_true,
    List.isEmpty_eq_false_iff, List.isEmpty_iff, isTagName_iff, List.all_eq_true, and_assoc]
  simp only [isMarkedName_iff]

theorem ofText?_eq_ofCut {t : Text} {selector : Selector} : Selector.ofText? t = some selector ↔
    trim t ≠ [] ∧ (Form.ofCut (cutMarks (trim t))).Valid ∧ selector = (Form.ofCut (cutMarks (trim t))).selector := by
  obtain ⟨marks, -⟩ := cutMarks_sound (trim t)
  rw [Form.valid_ofCut marks, Form.selector, Form.ofCut, identifiers_of, classNames_of marks]
  unfold Selector.ofText?
  simp only
  split
  · rename_i refused
    constructor
    · intro none
      cases none
    · rintro ⟨nonempty, ⟨tag, names, -⟩, -⟩
      exact absurd ((refused_iff.mpr ⟨nonempty, tag, names⟩).symm.trans refused) Bool.false_ne_true
  · rename_i accepted
    obtain ⟨nonempty, tag, names⟩ := refused_iff.mp (Bool.eq_false_iff.mpr accepted)
    split
    · rename_i many
      constructor
      · intro none
        cases none
      · rintro ⟨-, ⟨-, -, single⟩, -⟩
        rw [many] at single
        simp at single
    · rename_i few
      have single : (((cutMarks (trim t)).2.filter (·.1 = '#')).map (·.2)).length ≤ 1 := by
        rcases ids : ((cutMarks (trim t)).2.filter (·.1 = '#')).map (·.2) with _ | ⟨first, _ | ⟨second, others⟩⟩
        · rw [ids]
          exact Nat.zero_le _
        · rw [ids]
          exact Nat.le_refl _
        · exact absurd ids (few first second others)
      rw [Option.some.injEq, eq_comm]
      exact ⟨fun same => ⟨nonempty, ⟨tag, names, single⟩, same⟩, fun read => read.2.2⟩

/-- A text is a selector exactly if it has the form of one. -/
theorem ofText?_eq_some {t : Text} {selector : Selector} : Selector.ofText? t = some selector ↔
    trim t ≠ [] ∧ ∃ form : Form, form.Valid ∧ form.text = trim t ∧ selector = form.selector := by
  rw [ofText?_eq_ofCut]
  refine and_congr_right fun _ => ⟨fun ⟨valid, same⟩ => ⟨_, valid, Form.text_ofCut (trim t), same⟩, ?_⟩
  rintro ⟨form, valid, written, same⟩
  rw [← written, Form.ofCut_cutMarks valid]
  exact ⟨valid, same⟩

theorem matches_iff {selector : Selector} {tagName : Text} {attributes : Table Text} :
    selector.matches tagName attributes ↔ (∀ tag ∈ selector.tag, tag = tagName) ∧
      (∀ id ∈ selector.id, attributes.get? "id".toList = some id) ∧
        ∀ name ∈ selector.classes, ∃ value, attributes.get? "class".toList = some value ∧ StandsAlone name value := by
  have tag : (selector.tag.isNone || decide (selector.tag = some tagName)) = true ↔ ∀ tag ∈ selector.tag, tag = tagName := by
    cases selector.tag <;> simp
  have id : (selector.id.isNone || decide (selector.id = attributes.get? "id".toList)) = true ↔
      ∀ id ∈ selector.id, attributes.get? "id".toList = some id := by
    cases selector.id <;> simp [eq_comm]
  have classes : (selector.classes.all fun name =>
      (words ((attributes.get? "class".toList).getD [])).contains name) = true ↔
        ∀ name ∈ selector.classes, ∃ value, attributes.get? "class".toList = some value ∧ StandsAlone name value := by
    rw [List.all_eq_true]
    refine forall₂_congr fun name _ => ?_
    rw [List.contains_iff_mem, mem_words_iff]
    cases attributes.get? "class".toList with
    | some value => simp
    | none =>
      constructor
      · intro stands
        obtain ⟨before, after, whole, -⟩ := stands.apart
        simp [stands.ne_nil] at whole
      · rintro ⟨_, missing, -⟩
        cases missing
  rw [Selector.matches, Bool.and_eq_true, Bool.and_eq_true, tag, id, classes, and_assoc]

/-- The selectors are the texts of one form each, and what matches one has its tag name, its identifier and all of its
    classes. -/
theorem selector_by_form (t : Text) :
    (∀ selector, Selector.ofText? t = some selector ↔
      trim t ≠ [] ∧ ∃ form : Form, form.Valid ∧ form.text = trim t ∧ selector = form.selector) ∧
    (∀ form form' : Form, form.Valid → form'.Valid → form.text = trim t → form'.text = trim t → form = form') ∧
      ∀ (selector : Selector) (tagName : Text) (attributes : Table Text), Selector.ofText? t = some selector →
        (selector.matches tagName attributes ↔ (∀ tag ∈ selector.tag, tag = tagName) ∧
          (∀ id ∈ selector.id, attributes.get? "id".toList = some id) ∧
            ∀ name ∈ selector.classes, ∃ value,
              attributes.get? "class".toList = some value ∧ StandsAlone name value) := by
  refine ⟨fun _ => ofText?_eq_some, fun form form' valid valid' written written' => ?_, fun _ _ _ _ => matches_iff⟩
  exact Form.text_injective valid valid' (written.trans written'.symm)

theorem selector_by_form_eye :
    let selector : Selector := ⟨some "rect".toList, some "left".toList, ["eye".toList]⟩
    let attributes : Table Text := [("id".toList, "left".toList), ("class".toList, "big eye".toList)]
    Selector.ofText? " rect.eye#left ".toList = some selector ∧
      ((∀ tag ∈ selector.tag, tag = "rect".toList) ∧ (∀ id ∈ selector.id, attributes.get? "id".toList = some id) ∧
        ∀ name ∈ selector.classes, ∃ value,
          attributes.get? "class".toList = some value ∧ StandsAlone name value) := by
  intro selector attributes
  obtain ⟨reads, -, fits⟩ := selector_by_form " rect.eye#left ".toList
  let form : Form := ⟨some "rect".toList, [.className "eye".toList, .identifier "left".toList]⟩
  have tag : ∀ name ∈ form.tag, isTagName name := by decide
  have parts : ∀ part ∈ form.parts, isMarkedName part.name := by decide
  have valid : form.Valid := {
    tag := fun name member => isTagName_iff.mp (tag name member)
    parts := fun part member => isMarkedName_iff.mp (parts part member)
    single := by decide }
  have read := (reads selector).mpr ⟨by decide, form, valid, by decide, rfl⟩
  exact ⟨read, (fits selector "rect".toList attributes read).mp (by decide)⟩

end Flipbook.Markup
