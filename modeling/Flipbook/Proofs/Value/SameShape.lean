import Flipbook.Proofs.Value.Blended

namespace Flipbook

open Binary64 Scalar Text

def FunctionCall.Alike (call other : FunctionCall) : Prop :=
  call.name = other.name ∧ call.arguments.length = other.arguments.length

/-- Two kinds have the same shape if they differ in numbers and in the texts of arguments only. -/
inductive SameShape : ValueKind → ValueKind → Prop
  | color (red green blue red' green' blue' : Nat) : SameShape (.color red green blue) (.color red' green' blue')
  | functions {calls calls' : List FunctionCall} (alike : List.Forall₂ FunctionCall.Alike calls calls') :
      SameShape (.functions calls) (.functions calls')
  | measure (amount amount' : Numeral) (unit : Text) : SameShape (.measure amount unit) (.measure amount' unit)
  | number (amount amount' : Numeral) : SameShape (.number amount) (.number amount')
  | path {tokens tokens' : List PathToken} (alike : List.Forall₂ PathToken.Alike tokens tokens') :
      SameShape (.path tokens) (.path tokens')

structure KeepsShape (kind : ValueKind) (t : Text) : Prop where
  sameShape : SameShape kind (classify t).kind
  colorText : ∀ red green blue, kind = .color red green blue → ColorText t

def pathNumbers (t : Float) : List PathToken → List PathToken → List Float
  | .number _ a :: rest, .number _ b :: rest' =>
    roundOrKeep (lerp (ofNumeral a) (ofNumeral b) t) :: pathNumbers t rest rest'
  | _ :: rest, _ :: rest' => pathNumbers t rest rest'
  | _, _ => []

/-- The numbers that two values are blended with: those that are rounded and, if path data blends, its numbers. -/
def blendedNumbers (start finish : ValueKind) (t : Float) : List Float :=
  match start, finish with
  | .path tokens, .path tokens' => if (blendPath t tokens tokens').isSome then pathNumbers t tokens tokens' else []
  | _, _ => roundedNumbers start finish t

theorem switch_eq (start finish : Text) (t : Float) :
    switch start finish t = start ∨ switch start finish t = finish := by
  unfold switch
  split
  · exact .inl rfl
  · exact .inr rfl

theorem numeralText_of_blendNumber {a b : Numeral} {t : Float} {result : Text}
    (computed : blendNumber a b t = .ok result) : NumeralText result := by
  have finite := ((blendNumber_failsAt a b t).ok_iff.mp ⟨result, computed⟩) _ (List.mem_singleton_self _)
  obtain ⟨y, rounded, finite'⟩ := roundTo_of_isFinite finite
  obtain ⟨y', rounded', same⟩ := bind_eq_ok computed
  have unique : y = y' := Except.ok.inj (rounded.symm.trans rounded')
  cases same
  exact unique ▸ sheetText_numeral finite'

def isHexPair : Text → Bool
  | [c, c'] => lowercaseHex.contains c && lowercaseHex.contains c'
  | _ => false

theorem channelText_eq (n : Int) :
    ∃ c c', channelText n = [c, c'] ∧ c ∈ lowercaseHex ∧ c' ∈ lowercaseHex := by
  have bytes : ((List.range 256).all fun k => isHexPair (padLeft '0' 2 (Nat.toDigits 16 k))) = true := by
    decide +kernel
  have small : (min 255 n).toNat ∈ List.range 256 := List.mem_range.mpr (by omega)
  have byte := List.all_eq_true.mp bytes _ small
  unfold channelText
  unfold isHexPair at byte
  split at byte
  · rename_i c c' shape
    rw [Bool.and_eq_true, List.contains_iff_mem, List.contains_iff_mem] at byte
    exact ⟨c, c', shape, byte⟩
  · cases byte

theorem colorText_of_blendColor {a b : Nat × Nat × Nat} {t : Float} {result : Text}
    (computed : blendColor a b t = .ok result) : ColorText result := by
  have channel {a b : Nat} {text : Text} (computed : blendChannel a b t = .ok text) :
      ∃ c c', text = [c, c'] ∧ c ∈ lowercaseHex ∧ c' ∈ lowercaseHex := by
    obtain ⟨n, -, same⟩ := bind_eq_ok computed
    cases same
    exact channelText_eq n
  obtain ⟨red, redComputed, computed⟩ := bind_eq_ok computed
  obtain ⟨green, greenComputed, computed⟩ := bind_eq_ok computed
  obtain ⟨blue, blueComputed, same⟩ := bind_eq_ok computed
  obtain ⟨r, r', rfl, hr, hr'⟩ := channel redComputed
  obtain ⟨g, g', rfl, hg, hg'⟩ := channel greenComputed
  obtain ⟨b, b', rfl, hb, hb'⟩ := channel blueComputed
  cases same
  refine .mk ?_
  simp only [List.forall_mem_cons]
  exact ⟨hr, hr', hg, hg', hb, hb', by simp⟩

/-- An argument is printed as an entry of a list that does not close it. -/
structure Closed (argument : Text) : Prop where
  isEntry : IsEntry argument
  unclosed : ')' ∉ argument

theorem isUnit_of_argument? {argument unit : Text} {amount : Numeral}
    (read : argument? argument = some (amount, unit)) : unit = [] ∨ IsUnit unit := by
  rcases Option.or_eq_some_iff.mp read with measured | ⟨-, number⟩
  · exact .inr (isUnit_of_measure? measured)
  · obtain ⟨_, -, same⟩ := Option.map_eq_some_iff.mp number
    cases same
    exact .inl rfl

theorem isUnit_of_arguments {a b unit unit' : Text} {x y : Numeral} (first : argument? a = some (x, unit))
    (second : argument? b = some (y, unit')) :
    (if unit.isEmpty then unit' else unit) = [] ∨ IsUnit (if unit.isEmpty then unit' else unit) := by
  split
  · exact isUnit_of_argument? second
  · exact isUnit_of_argument? first

theorem isMeasureChar_of_blendNumber {a b : Numeral} {t : Float} {lexeme unit : Text}
    (computed : blendNumber a b t = .ok lexeme) (isUnit : unit = [] ∨ IsUnit unit) :
    ∀ c ∈ lexeme ++ unit, isMeasureChar c := by
  intro c member
  rcases List.mem_append.mp member with inside | inside
  · exact (numeralText_of_blendNumber computed).isMeasureChar c inside
  · rcases isUnit with rfl | isUnit
    · cases inside
    · exact isUnit.isMeasureChar c inside

theorem closed_of_blendNumber {a b : Numeral} {t : Float} {lexeme unit : Text}
    (computed : blendNumber a b t = .ok lexeme) (isUnit : unit = [] ∨ IsUnit unit) : Closed (lexeme ++ unit) := by
  have inside := isMeasureChar_of_blendNumber computed isUnit
  have nonempty : lexeme ++ unit ≠ [] := by simp [(numeralText_of_blendNumber computed).ne_nil]
  refine ⟨⟨nonempty, fun c member => isBlank_of_isMeasureChar (inside c member), fun comma => ?_⟩, fun closing => ?_⟩
  · cases inside ',' comma
  · cases inside ')' closing

theorem ArgumentBlends.closed {t : Float} {a b first : Text} (blends : ArgumentBlends t a b first) (closed : Closed a) :
    Closed first := by
  cases blends with
  | same => exact closed
  | numbers read read' number => exact closed_of_blendNumber number (isUnit_of_arguments read read')

theorem CallBlends.alike {t : Float} {f g blended : FunctionCall} (blends : CallBlends t f g blended) :
    f.Alike blended :=
  ⟨blends.name_eq.symm, (blends.arguments.forall₂ fun _ _ _ _ => True.intro).length_eq⟩

theorem CallBlends.legible {t : Float} {f g blended : FunctionCall} (blends : CallBlends t f g blended)
    (legible : f.Legible) : blended.Legible := by
  have closed : ∀ argument ∈ blended.arguments, Closed argument :=
    blends.arguments.forall_mem (fun a member => ⟨legible.isEntry a member, legible.unclosed a member⟩)
      fun a b c blends closed => blends.closed closed
  refine ⟨?_, ?_, fun argument member => (closed argument member).isEntry,
    fun argument member => (closed argument member).unclosed⟩
  · rw [blends.name_eq]
    exact legible.name_ne_nil
  · rw [blends.name_eq]
    exact legible.name_inside

theorem classify_blendedCalls {t : Float} {calls calls' blended : List FunctionCall}
    (legible : (ValueKind.functions calls).Legible) (triples : Triples (CallBlends t) calls calls' blended) :
    (classify (joinWith [' '] (blended.map FunctionCall.text))).kind = .functions blended ∧
      List.Forall₂ FunctionCall.Alike calls blended := by
  have alike : List.Forall₂ FunctionCall.Alike calls blended := triples.forall₂ fun _ _ _ blends => blends.alike
  have filled : blended ≠ [] := by
    rintro rfl
    cases alike
    exact legible.1 rfl
  have legible' := triples.forall_mem legible.2 fun _ _ _ blends => blends.legible
  exact ⟨classify_callsText ⟨filled, legible'⟩, alike⟩

theorem written_of_triples {t : Float} {tokens tokens' : List PathToken} {texts : List Text}
    (letters : ∀ letter, .command letter ∈ tokens → isAsciiLetter letter)
    (finite : ∀ x ∈ pathNumbers t tokens tokens', isFinite x) (triples : Triples (TokenBlends t) tokens tokens' texts) :
    List.Forall₂ PathToken.Written tokens texts := by
  induction triples with
  | nil => exact .nil
  | cons first others ih =>
    have letters' := fun letter member => letters letter (List.mem_cons_of_mem _ member)
    cases first with
    | command letter => exact .cons (.command (letters letter List.mem_cons_self)) (ih letters' finite)
    | number lexeme lexeme' a b =>
      obtain ⟨here, later⟩ := List.forall_mem_cons.mp finite
      exact .cons (.number (sheetText_numeral here)) (ih letters' later)

/-- What a blend can give: one of the two texts, or a text of the shape of the first value. -/
def StaysWithin (start finish : Value) (result : Text) : Prop :=
  result = start.text ∨ result = finish.text ∨ KeepsShape start.kind result

theorem staysWithin_switch (start finish : Value) (t : Float) :
    StaysWithin start finish (switch start.text finish.text t) :=
  (switch_eq start.text finish.text t).imp_right .inl

theorem staysWithin_of_blend {start finish : Value} {t : Float} {result : Text} (legible : start.kind.Legible)
    (finite : ∀ x ∈ blendedNumbers start.kind finish.kind t, isFinite x)
    (computed : start.blend finish t = .ok result) : StaysWithin start finish result := by
  have keeps {kind : ValueKind} {result : Text} (first : start.kind = kind)
      (shape : SameShape kind (classify result).kind) (noColor : ∀ red green blue, kind ≠ .color red green blue) :
      StaysWithin start finish result :=
    .inr (.inr ⟨first ▸ shape, fun red green blue isColor => (noColor red green blue (first.symm.trans isColor)).elim⟩)
  -- Values of two kinds switch. Of the others each kind has its own text to be classified.
  cases blendsTo_of_blend computed with
  | switches => exact staysWithin_switch start finish t
  | color first second computed =>
    have text : ColorText result := colorText_of_blendColor computed
    obtain ⟨red, green, blue, classified⟩ := classify_colorText text
    exact .inr (.inr ⟨by rw [first, classified]; exact .color .., fun _ _ _ _ => text⟩)
  | functions first second fit triples =>
    rw [first] at legible
    obtain ⟨classified, alike⟩ := classify_blendedCalls legible triples
    exact keeps first (classified ▸ .functions alike) (by simp)
  | measure first second number =>
    rw [first] at legible
    obtain ⟨amount, classified⟩ := classify_measureText (numeralText_of_blendNumber number) legible
    exact keeps first (classified ▸ .measure ..) (by simp)
  | number first second number =>
    obtain ⟨amount, classified⟩ := classify_numeralText (numeralText_of_blendNumber number)
    exact keeps first (classified ▸ .number ..) (by simp)
  | path first second triples blended =>
    rw [first] at legible
    rw [first, second] at finite
    simp only [blendedNumbers, blended, Option.isSome_some, ↓reduceIte] at finite
    have written := written_of_triples (fun letter member => (legible.1 letter member).1) finite triples
    obtain ⟨read, classified, alike⟩ := classify_pathText legible written
    exact keeps first (classified ▸ .path alike) (by simp)

theorem isFinite_roundedNumbers {start finish : ValueKind} {t : Float}
    (finite : ∀ x ∈ blendedNumbers start finish t, isFinite x) : ∀ x ∈ roundedNumbers start finish t, isFinite x := by
  intro x member
  cases start with
  | path tokens => cases finish <;> cases member
  | _ => exact finite x member

/-- If every number that is computed between two values is finite, they blend to the text of one of them or to
    a text that is read as of the kind and shape of the first, at any `t`. -/
theorem blend_keeps_shape (start finish : Text) (t : Float)
    (finite : ∀ x ∈ blendedNumbers (classify start).kind (classify finish).kind t, isFinite x) :
    ∃ result, (classify start).blend (classify finish) t = .ok result ∧
      (result = (classify start).text ∨ result = (classify finish).text ∨
        KeepsShape (classify start).kind result) := by
  obtain ⟨result, computed⟩ :=
    (blend_failsAt (classify start) (classify finish) t).ok_iff.mpr (isFinite_roundedNumbers finite)
  exact ⟨result, computed, staysWithin_of_blend (legible_classify start) finite computed⟩

theorem blend_keeps_shape_turning :
    (∀ x ∈ blendedNumbers (classify "rotate(10deg) translate(1, 2px)".toList).kind
      (classify "rotate(1e2deg) translate(.3px 4)".toList).kind 1.25, isFinite x) ∧
    ∃ result, (classify "rotate(10deg) translate(1, 2px)".toList).blend
        (classify "rotate(1e2deg) translate(.3px 4)".toList) (1.25 : Float) = .ok result ∧
      (result = (classify "rotate(10deg) translate(1, 2px)".toList).text ∨
        result = (classify "rotate(1e2deg) translate(.3px 4)".toList).text ∨
        KeepsShape (classify "rotate(10deg) translate(1, 2px)".toList).kind result) :=
  ⟨by decide +kernel, blend_keeps_shape _ _ 1.25 (by decide +kernel)⟩

example : (classify "rotate(10deg) translate(1, 2px)".toList).blend
    (classify "rotate(1e2deg) translate(.3px 4)".toList) (1.25 : Float) =
      .ok "rotate(122.5deg) translate(0.125px, 4.5px)".toList := by decide +kernel

end Flipbook
