import Flipbook.Proofs.Value.SameShape

namespace Flipbook

open Binary64 Scalar Text

def unit? (argument : Text) : Option Text := (argument? argument).map Prod.snd

def FunctionCall.units (call : FunctionCall) : List (Option Text) := call.arguments.map unit?

/-- The unit of a blended argument: that of the first, or for a number without unit that of the second. -/
def inheritUnit : Option Text → Option Text → Option Text
  | some [], unit' => unit'
  | unit, _ => unit

def inheritUnits (f g : FunctionCall) : List (Option Text) := List.zipWith inheritUnit f.units g.units

def unlikeUnits (a b : Text) : Bool :=
  match unit? a, unit? b with
  | some unit, some unit' => !unit.isEmpty && !unit'.isEmpty && unit ≠ unit'
  | _, _ => false

def FunctionCall.mixesUnits (f g : FunctionCall) : Bool :=
  (f.arguments.zip g.arguments).any fun pair => unlikeUnits pair.1 pair.2

/-- Somewhere in the function lists two numbers with units that differ stand in the same place. -/
def mixesUnits (calls calls' : List FunctionCall) : Bool :=
  (calls.zip calls').any fun pair => pair.1.mixesUnits pair.2

theorem argument?_numeralText {lexeme unit : Text} (text : NumeralText lexeme) (isUnit : unit = [] ∨ IsUnit unit) :
    ∃ amount, argument? (lexeme ++ unit) = some (amount, unit) := by
  unfold argument?
  rcases isUnit with rfl | isUnit
  · obtain ⟨noUnit, amount, number⟩ := ofText?_numeralText text
    refine ⟨amount, ?_⟩
    rw [List.append_nil, noUnit, number]
    rfl
  · obtain ⟨amount, measured⟩ := measure?_measureText text isUnit
    refine ⟨amount, ?_⟩
    rw [measured]
    rfl

theorem ArgumentBlends.unit?_eq {t : Float} {a b blended : Text} (blends : ArgumentBlends t a b blended) :
    unit? blended = inheritUnit (unit? a) (unit? b) := by
  unfold unit?
  cases blends with
  | same noNumber =>
    rw [noNumber]
    rfl
  | @numbers _ unit unit' lexeme x y first second number =>
    have numeral : NumeralText lexeme := numeralText_of_blendNumber number
    obtain ⟨amount, read⟩ := argument?_numeralText numeral (isUnit_of_arguments first second)
    rw [read, first, second]
    cases unit <;> rfl

theorem ArgumentBlends.unlikeUnits_eq_false {t : Float} {a b blended : Text} (blends : ArgumentBlends t a b blended) :
    unlikeUnits a blended = false := by
  unfold unlikeUnits
  rw [blends.unit?_eq]
  -- A unit is kept, and what has none is unlike nothing.
  cases unit? a with
  | none => rfl
  | some unit =>
    cases unit with
    | nil => cases unit? b <;> rfl
    | cons c unit => simp [inheritUnit]

theorem CallBlends.units_eq {t : Float} {f g blended : FunctionCall} (blends : CallBlends t f g blended) :
    blended.units = inheritUnits f g := by
  unfold inheritUnits FunctionCall.units
  rw [List.zipWith_map]
  exact blends.arguments.map_eq_zipWith fun _ _ _ blends => blends.unit?_eq

theorem CallBlends.mixesUnits_eq_false {t : Float} {f g blended : FunctionCall} (blends : CallBlends t f g blended) :
    f.mixesUnits blended = false :=
  blends.arguments.any_zip_eq_false fun _ _ _ blends => blends.unlikeUnits_eq_false

theorem text_classify_of_functions {t : Text} {calls : List FunctionCall}
    (functions : (classify t).kind = .functions calls) : (classify t).text = t := by
  unfold classify at functions ⊢
  split
  · rename_i color
    obtain ⟨red, green, blue, rfl⟩ := color?_eq_some color
    rw [color] at functions
    cases functions
  · split
    · rfl
    · split
      · rfl
      · split
        · rfl
        · split <;> rfl

/-- Function lists whose numbers stay finite blend if their names and arguments fit, and switch if they do not: units
    are not compared. Each number is blended as if the units were the same, and printed with the unit of the first
    list, or with that of the second where the first has none. So where units differ the second list is not reached,
    whatever `t` is. -/
theorem blend_functions_units {start finish : Text} {calls calls' : List FunctionCall} {t : Float}
    (first : (classify start).kind = .functions calls) (second : (classify finish).kind = .functions calls')
    (finite : ∀ x ∈ roundedNumbers (.functions calls) (.functions calls') t, isFinite x) :
    ∃ result, (classify start).blend (classify finish) t = .ok result ∧
      (callsFit calls calls' = false ∧ result = switch start finish t ∨
        callsFit calls calls' ∧ ∃ blended, (classify result).kind = .functions blended ∧
          Triples (CallBlends t) calls calls' blended ∧
          blended.map FunctionCall.units = List.zipWith inheritUnits calls calls' ∧
          (mixesUnits calls calls' → result ≠ finish)) := by
  rw [← first, ← second] at finite
  obtain ⟨result, computed⟩ := (blend_failsAt (classify start) (classify finish) t).ok_iff.mpr finite
  refine ⟨result, computed, ?_⟩
  cases blendsTo_of_blend computed with
  | switches apart =>
    rw [first, second] at apart
    rw [text_classify_of_functions first, text_classify_of_functions second]
    exact .inl ⟨apart, rfl⟩
  | @functions _ _ blended first' second' fit triples =>
    obtain rfl : calls = _ := ValueKind.functions.inj (first.symm.trans first')
    obtain rfl : calls' = _ := ValueKind.functions.inj (second.symm.trans second')
    have legible := legible_classify start
    rw [first] at legible
    have classified := (classify_blendedCalls legible triples).1
    refine .inr ⟨fit, blended, classified, triples, triples.map_eq_zipWith fun _ _ _ blends => blends.units_eq, ?_⟩
    rintro mixes reached
    rw [reached, second] at classified
    obtain rfl : calls' = blended := ValueKind.functions.inj classified
    have alike : mixesUnits calls calls' = false :=
      triples.any_zip_eq_false fun _ _ _ blends => blends.mixesUnits_eq_false
    rw [alike] at mixes
    cases mixes
  | color first' | measure first' | number first' | path first' =>
    rw [first] at first'
    cases first'

theorem blend_functions_units_degrees :
    ∃ calls calls', (classify "rotate(10deg)".toList).kind = .functions calls ∧
      (classify "rotate(1rad)".toList).kind = .functions calls' ∧
      (∀ x ∈ roundedNumbers (.functions calls) (.functions calls') 0.5, isFinite x) ∧ mixesUnits calls calls' ∧
      ∃ result, (classify "rotate(10deg)".toList).blend (classify "rotate(1rad)".toList) (0.5 : Float) = .ok result ∧
        (callsFit calls calls' = false ∧ result = switch "rotate(10deg)".toList "rotate(1rad)".toList (0.5 : Float) ∨
          callsFit calls calls' ∧ ∃ blended, (classify result).kind = .functions blended ∧
            Triples (CallBlends 0.5) calls calls' blended ∧
            blended.map FunctionCall.units = List.zipWith inheritUnits calls calls' ∧
            (mixesUnits calls calls' → result ≠ "rotate(1rad)".toList)) := by
  have first : (classify "rotate(10deg)".toList).kind = .functions [⟨"rotate".toList, ["10deg".toList]⟩] := by
    decide +kernel
  have second : (classify "rotate(1rad)".toList).kind = .functions [⟨"rotate".toList, ["1rad".toList]⟩] := by
    decide +kernel
  have finite : ∀ x ∈ roundedNumbers (.functions [⟨"rotate".toList, ["10deg".toList]⟩])
      (.functions [⟨"rotate".toList, ["1rad".toList]⟩]) 0.5, isFinite x := by decide +kernel
  exact ⟨_, _, first, second, finite, by decide +kernel, blend_functions_units first second finite⟩

example : (classify "rotate(10deg)".toList).blend (classify "rotate(1rad)".toList) (0.5 : Float) =
    .ok "rotate(5.5deg)".toList := by decide +kernel

end Flipbook
