import Flipbook.Markup.Transform
import Flipbook.Proofs.Number.IntegerText
import Flipbook.Proofs.Text.Calls
import Flipbook.Proofs.Text.Joined

namespace Flipbook.Markup

open Text Binary64 Css

inductive Axis
  | x
  | y
  deriving DecidableEq

def Axis.letter : Axis → Char
  | x => 'X'
  | y => 'Y'

/-- The functions of style sheets that keep the axes. -/
inductive TransformFunction
  | translate (x : Int) (y : Option Int)
  | translateAlong (axis : Axis) (n : Int)
  | scale (x : Int) (y : Option Int)
  | scaleAlong (axis : Axis) (n : Int)
  deriving DecidableEq

abbrev Plane := Axis → ℚ

namespace TransformFunction

def factor : TransformFunction → Axis → Int
  | scale x _, .x => x
  | scale x y, .y => y.getD x
  | scaleAlong axis n, other => if axis = other then n else 1
  | translate .., _ | translateAlong .., _ => 1

def offset : TransformFunction → Axis → Int
  | translate x _, .x => x
  | translate _ y, .y => y.getD 0
  | translateAlong axis n, other => if axis = other then n else 0
  | scale .., _ | scaleAlong .., _ => 0

def map (f : TransformFunction) (p : Plane) : Plane := fun axis => f.factor axis * p axis + f.offset axis

/-- The composition from left to right: the last function is the first to be applied. -/
def mapAll (fs : List TransformFunction) (p : Plane) : Plane := fs.foldr map p

def name : TransformFunction → Text
  | translate .. => "translate".toList
  | translateAlong axis _ => "translate".toList ++ [axis.letter]
  | scale .. => "scale".toList
  | scaleAlong axis _ => "scale".toList ++ [axis.letter]

def numbers : TransformFunction → List Int
  | translate x y | scale x y => x :: y.toList
  | translateAlong _ n | scaleAlong _ n => [n]

def kind : TransformFunction → TransformKind
  | translate .. => .translate
  | translateAlong .x _ => .translateX
  | translateAlong .y _ => .translateY
  | scale .. => .scale
  | scaleAlong .x _ => .scaleX
  | scaleAlong .y _ => .scaleY

def isPlanar : TransformFunction → Bool
  | translate .. | scale .. => true
  | translateAlong .. | scaleAlong .. => false

end TransformFunction

inductive LengthText : Int → Text → Prop
  | plain {n : Int} {t : Text} (integer : IntegerText n t) : LengthText n t
  | pixels {n : Int} {t : Text} (integer : IntegerText n t) : LengthText n (t ++ "px".toList)

inductive NumbersText (number : Int → Text → Prop) : List Int → Text → Prop
  | last {n : Int} {before t after : Text} (blankBefore : ∀ c ∈ before, isBlank c) (written : number n t)
      (blankAfter : ∀ c ∈ after, isBlank c) : NumbersText number [n] (before ++ t ++ after)
  | comma {n : Int} {ns : List Int} {before t after rest : Text} (blankBefore : ∀ c ∈ before, isBlank c)
      (written : number n t) (blankAfter : ∀ c ∈ after, isBlank c) (others : NumbersText number ns rest) :
      NumbersText number (n :: ns) (before ++ t ++ after ++ ',' :: rest)

/-- Shifts go by lengths, scales by plain numbers. -/
def CallText (length : Int → Text → Prop) (f : TransformFunction) (call : Call) : Prop :=
  call.name = f.name ∧
    match f with
    | .translate .. | .translateAlong .. => NumbersText length f.numbers call.arguments
    | .scale .. | .scaleAlong .. => NumbersText IntegerText f.numbers call.arguments

inductive ListText (callText : TransformFunction → Call → Prop) : List TransformFunction → Text → Prop
  | nil {gap : Text} (blank : ∀ c ∈ gap, isBlank c) : ListText callText [] gap
  | cons {f : TransformFunction} {fs : List TransformFunction} {call : Call} {gap rest : Text}
      (blank : ∀ c ∈ gap, isBlank c) (written : callText f call) (others : ListText callText fs rest) :
      ListText callText (f :: fs) (gap ++ (call.name ++ '(' :: call.arguments ++ ')' :: rest))

/-- A list of a style sheet; `px` may follow a length. -/
def CssList : List TransformFunction → Text → Prop := ListText (CallText LengthText)

/-- A list of a `transform` attribute, without units. -/
def SvgList : List TransformFunction → Text → Prop := ListText fun f call => f.isPlanar ∧ CallText IntegerText f call

namespace LengthText

variable {n : Int} {t : Text}

theorem read? (written : LengthText n t) :
    ∃ negative size lexeme rest, Numeral.read? t = some ⟨⟨negative, size, 0⟩, lexeme, rest⟩ ∧ signed negative size = n := by
  cases written with
  | plain integer =>
    obtain ⟨negative, size, read, same⟩ := integer.read? EndsNumeral.nil
    rw [List.append_nil] at read
    exact ⟨negative, size, _, _, read, same⟩
  | pixels integer =>
    have ends : EndsNumeral "px".toList := .cons (by decide) (by decide) (by decide) (by decide) _
    obtain ⟨negative, size, read, same⟩ := integer.read? ends
    exact ⟨negative, size, _, _, read, same⟩

theorem unique {m : Int} (written : LengthText n t) (written' : LengthText m t) : n = m := by
  obtain ⟨negative, size, _, _, read, rfl⟩ := written.read?
  obtain ⟨negative', size', _, _, read', rfl⟩ := written'.read?
  rw [read] at read'
  cases read'
  rfl

theorem ne_nil (written : LengthText n t) : t ≠ [] := by
  cases written with
  | plain integer => exact integer.ne_nil
  | pixels integer => simp

theorem char (written : LengthText n t) : ∀ c ∈ t, isDigit c ∨ c ∈ ['+', '-', 'p', 'x'] := by
  have wider {c : Char} (mark : c ∈ ['+', '-']) : c ∈ ['+', '-', 'p', 'x'] :=
    (List.sublist_append_left ['+', '-'] ['p', 'x']).subset mark
  intro c member
  cases written with
  | plain integer => exact (integer.char c member).imp_right wider
  | pixels integer =>
    rcases List.mem_append.mp member with member | unit
    · exact (integer.char c member).imp_right wider
    · exact .inr ((List.sublist_append_right ['+', '-'] ['p', 'x']).subset unit)

theorem ne_of_mem (written : LengthText n t) {other : Char} (noDigit : isDigit other = false)
    (noMark : other ∉ ['+', '-', 'p', 'x']) : other ∉ t := by
  intro member
  rcases written.char other member with digit | mark
  · exact ne_of_isDigit digit noDigit rfl
  · exact noMark mark

theorem isEntry (written : LengthText n t) : IsEntry t where
  ne_nil := written.ne_nil
  noComma := written.ne_of_mem (by decide) (by decide)
  solid := by
    have marks : (['+', '-', 'p', 'x'].any isBlank) = false := by decide
    intro c member
    rcases written.char c member with digit | mark
    · exact isBlank_of_isDigit digit
    · simpa using List.any_eq_false.mp marks c mark

end LengthText

namespace NumbersText

variable {number number' : Int → Text → Prop} {ns : List Int} {t : Text}

theorem mono (weaker : ∀ n t, number n t → number' n t) (written : NumbersText number ns t) :
    NumbersText number' ns t := by
  induction written with
  | last blankBefore written blankAfter => exact .last blankBefore (weaker _ _ written) blankAfter
  | comma blankBefore written blankAfter _ ih => exact .comma blankBefore (weaker _ _ written) blankAfter ih

theorem entries_eq (written : NumbersText LengthText ns t) : List.Forall₂ LengthText ns (entries t) := by
  induction written with
  | last blankBefore written blankAfter =>
    rw [entries_around blankBefore blankAfter, written.isEntry.entries_eq]
    exact .cons written .nil
  | comma blankBefore written blankAfter _ ih =>
    rw [entries_comma, entries_around blankBefore blankAfter, written.isEntry.entries_eq]
    exact .cons written ih

theorem unclosed (written : NumbersText LengthText ns t) : ')' ∉ t := by
  have solid {gap : Text} (blank : ∀ c ∈ gap, isBlank c) : ')' ∉ gap := fun member => by
    have closing := blank ')' member
    revert closing
    decide
  induction written with
  | last blankBefore written blankAfter =>
    simp only [List.mem_append, not_or]
    exact ⟨⟨solid blankBefore, written.ne_of_mem (by decide) (by decide)⟩, solid blankAfter⟩
  | comma blankBefore written blankAfter _ ih =>
    simp only [List.mem_append, List.mem_cons, not_or]
    exact ⟨⟨⟨solid blankBefore, written.ne_of_mem (by decide) (by decide)⟩, solid blankAfter⟩, by decide, ih⟩

end NumbersText

namespace TransformFunction

theorem ofName_name (f : TransformFunction) : TransformKind.ofName f.name = f.kind := by
  cases f with
  | translate | scale => rfl
  | translateAlong axis | scaleAlong axis => cases axis <;> rfl

theorem toList_injective : Function.Injective (Option.toList (α := Int)) := by
  intro a b same
  cases a <;> cases b <;> simp_all

theorem eq_of_name {f g : TransformFunction} (names : f.name = g.name) (numbers : f.numbers = g.numbers) : f = g := by
  have kinds : f.kind = g.kind := by rw [← ofName_name, names, ofName_name]
  rcases f with _ | ⟨_ | _, _⟩ | _ | ⟨_ | _, _⟩ <;> rcases g with _ | ⟨_ | _, _⟩ | _ | ⟨_ | _, _⟩ <;> cases kinds <;>
    simpa [TransformFunction.numbers, toList_injective.eq_iff] using numbers

theorem name_legible (f : TransformFunction) : f.name ≠ [] ∧ ∀ c ∈ f.name, isWord c := by
  have words : (["translate", "translateX", "translateY", "scale", "scaleX", "scaleY"].all fun name =>
      name.toList ≠ [] && name.toList.all isWord) = true := by decide +kernel
  have legible (name : String) (listed : name ∈ ["translate", "translateX", "translateY", "scale", "scaleX", "scaleY"]) :
      name.toList ≠ [] ∧ ∀ c ∈ name.toList, isWord c := by
    simpa using List.all_eq_true.mp words name listed
  cases f with
  | translate => exact legible "translate" (by simp)
  | scale => exact legible "scale" (by simp)
  | translateAlong axis =>
    cases axis with
    | x => exact legible "translateX" (by simp)
    | y => exact legible "translateY" (by simp)
  | scaleAlong axis =>
    cases axis with
    | x => exact legible "scaleX" (by simp)
    | y => exact legible "scaleY" (by simp)

end TransformFunction

namespace CallText

variable {f g : TransformFunction} {call : Call}

theorem numbers_eq (written : CallText LengthText f call) : NumbersText LengthText f.numbers call.arguments := by
  obtain ⟨-, written⟩ := written
  cases f with
  | translate | translateAlong => exact written
  | scale | scaleAlong => exact written.mono fun _ _ => .plain

theorem mono (written : CallText IntegerText f call) : CallText LengthText f call := by
  obtain ⟨named, written⟩ := written
  refine ⟨named, ?_⟩
  cases f with
  | translate | translateAlong => exact written.mono fun _ _ => .plain
  | scale | scaleAlong => exact written

theorem legible (written : CallText LengthText f call) : call.Legible isWord where
  name_ne_nil := written.1 ▸ f.name_legible.1
  name_inside := written.1 ▸ f.name_legible.2
  unclosed := written.numbers_eq.unclosed

theorem unique (written : CallText LengthText f call) (written' : CallText LengthText g call) : f = g := by
  have unique : Relator.LeftUnique LengthText := fun _ _ _ => LengthText.unique
  apply TransformFunction.eq_of_name
  · exact written.1.symm.trans written'.1
  · exact List.left_unique_forall₂' unique written.numbers_eq.entries_eq written'.numbers_eq.entries_eq

end CallText

theorem findFrom_blank {gap : Text} (blank : ∀ c ∈ gap, isBlank c) (rest : Text) :
    Call.findFrom isWord [] none (gap ++ rest) = Call.findFrom isWord [] none rest := by
  induction gap with
  | nil => rfl
  | cons c gap ih =>
    have noName : isWord c = false := by
      have noName := isNameChar_of_isBlank (blank c List.mem_cons_self)
      exact (Bool.or_eq_false_iff.mp noName).1
    have step : Call.findFrom isWord [] none (c :: (gap ++ rest)) = Call.findFrom isWord [] none (gap ++ rest) := by
      simp [Call.findFrom, noName]
    rw [List.cons_append, step, ih fun d member => blank d (List.mem_cons_of_mem _ member)]

variable {fs gs : List TransformFunction} {t : Text}

theorem ListText.mono {callText callText' : TransformFunction → Call → Prop}
    (weaker : ∀ f call, callText f call → callText' f call) (written : ListText callText fs t) :
    ListText callText' fs t := by
  induction written with
  | nil blank => exact .nil blank
  | cons blank first _ ih => exact .cons blank (weaker _ _ first) ih

theorem CssList.findAll (written : CssList fs t) : List.Forall₂ (CallText LengthText) fs (Call.findAll isWord t) := by
  unfold Call.findAll
  induction written with
  | nil blank =>
    have none := findFrom_blank blank []
    rw [List.append_nil] at none
    rw [none]
    exact .nil
  | cons blank first _ ih =>
    rw [findFrom_blank blank, Call.findFrom_call first.legible (by decide)]
    exact .cons first ih

theorem CssList.unique (written : CssList fs t) (written' : CssList gs t) : fs = gs := by
  have unique : Relator.LeftUnique (CallText LengthText) := fun _ _ _ => CallText.unique
  exact List.left_unique_forall₂' unique written.findAll written'.findAll

theorem SvgList.cssList (written : SvgList fs t) : CssList fs t := written.mono fun _ _ call => call.2.mono

def functionText (lengthText : Int → Text) (f : TransformFunction) : Text :=
  callText f.name (f.numbers.map (match f with
    | .translate .. | .translateAlong .. => lengthText
    | .scale .. | .scaleAlong .. => Text.ofInt))

theorem numbersText_joinWith {number : Int → Text → Prop} {write : Int → Text} (writes : ∀ n, number n (write n))
    (n : Int) (ns : List Int) : NumbersText number (n :: ns) (joinWith [','] ((n :: ns).map write)) := by
  have blank : ∀ c ∈ ([] : Text), isBlank c := by simp
  induction ns generalizing n with
  | nil =>
    have last := NumbersText.last blank (writes n) blank
    rwa [List.append_nil] at last
  | cons m ns ih =>
    have comma := NumbersText.comma blank (writes n) blank (ih m)
    rw [List.append_nil] at comma
    rw [List.map_cons, List.map_cons, joinWith_char]
    exact comma

theorem exists_callText {length : Int → Text → Prop} {lengthText : Int → Text} (writes : ∀ n, length n (lengthText n))
    (f : TransformFunction) :
    ∃ call, CallText length f call ∧ functionText lengthText f = call.name ++ '(' :: call.arguments ++ [')'] := by
  refine ⟨⟨f.name, _⟩, ⟨rfl, ?_⟩, rfl⟩
  cases f with
  | translate | translateAlong => exact numbersText_joinWith writes _ _
  | scale | scaleAlong => exact numbersText_joinWith integerText_ofInt _ _

theorem ListText.blank_cons {callText : TransformFunction → Call → Prop} {c : Char} (blank : isBlank c)
    (written : ListText callText fs t) : ListText callText fs (c :: t) := by
  cases written with
  | nil gap => exact .nil (List.forall_mem_cons.mpr ⟨blank, gap⟩)
  | cons gap first others => exact .cons (List.forall_mem_cons.mpr ⟨blank, gap⟩) first others

theorem listText_joinWith {callText : TransformFunction → Call → Prop} {write : TransformFunction → Text}
    (writes : ∀ f ∈ fs, ∃ call, callText f call ∧ write f = call.name ++ '(' :: call.arguments ++ [')']) :
    ListText callText fs (joinWith [' '] (fs.map write)) := by
  have blank : ∀ c ∈ ([] : Text), isBlank c := by simp
  induction fs with
  | nil => exact .nil blank
  | cons f fs ih =>
    have others := ih fun g member => writes g (List.mem_cons_of_mem _ member)
    have list {rest : Text} (others : ListText callText fs rest) : ListText callText (f :: fs) (write f ++ rest) := by
      obtain ⟨call, written, same⟩ := writes f List.mem_cons_self
      have list := ListText.cons blank written others
      rw [same]
      simpa using list
    cases fs with
    | nil =>
      have alone := list others
      rwa [List.map_nil, joinWith, List.append_nil] at alone
    | cons g gs =>
      rw [List.map_cons, List.map_cons, joinWith_char]
      exact list (others.blank_cons (by decide))

theorem cssList_joinWith (fs : List TransformFunction) :
    CssList fs (joinWith [' '] (fs.map (functionText fun n => Text.ofInt n ++ "px".toList))) :=
  listText_joinWith fun f _ => exists_callText (fun n => .pixels (integerText_ofInt n)) f

theorem svgList_joinWith (planar : ∀ f ∈ fs, f.isPlanar) :
    SvgList fs (joinWith [' '] (fs.map (functionText Text.ofInt))) :=
  listText_joinWith fun f member => by
    obtain ⟨call, written, same⟩ := exists_callText integerText_ofInt f
    exact ⟨call, ⟨planar f member, written⟩, same⟩

end Flipbook.Markup
