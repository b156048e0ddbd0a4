import Flipbook.Proofs.Number.Rounding
import Flipbook.Proofs.Outcome
import Flipbook.Value.Blend

namespace Flipbook

open Binary64 Scalar

/-- The computation fails with the fault of the first of these numbers that has one, and has a result if
    none has one. -/
def FailsAt {β : Type} (computation : Except NumberError β) (rounded : List Float) : Prop :=
  match rounded.findSome? fault? with
  | some e => computation = .error e
  | none => ∃ result, computation = .ok result

namespace FailsAt

variable {β γ : Type} {computation : Except NumberError β} {next : β → Except NumberError γ}
  {rounded later : List Float}

theorem pure (result : β) : FailsAt (.ok result) [] := ⟨result, rfl⟩

theorem bind (first : FailsAt computation rounded)
    (others : ∀ result, computation = .ok result → FailsAt (next result) later) :
    FailsAt (computation >>= next) (rounded ++ later) := by
  unfold FailsAt at first others ⊢
  rw [List.findSome?_append]
  cases fault : rounded.findSome? fault? with
  | some e =>
    rw [fault] at first
    rw [first]
    rfl
  | none =>
    rw [fault] at first
    obtain ⟨result, computed⟩ := first
    have rest := others result computed
    rw [computed]
    exact rest

theorem map (first : FailsAt computation rounded) (f : β → γ) :
    FailsAt (computation >>= fun result => .ok (f result)) rounded := by
  have mapped : FailsAt (computation >>= fun result => .ok (f result)) (rounded ++ []) :=
    first.bind fun result _ => pure (f result)
  rwa [List.append_nil] at mapped

theorem error_iff (fails : FailsAt computation rounded) (e : NumberError) :
    computation = .error e ↔ rounded.findSome? fault? = some e := by
  unfold FailsAt at fails
  cases fault : rounded.findSome? fault? with
  | some e' =>
    rw [fault] at fails
    rw [fails, Except.error.injEq, Option.some.injEq]
  | none =>
    rw [fault] at fails
    obtain ⟨result, computed⟩ := fails
    rw [computed]
    simp

theorem ok_iff (fails : FailsAt computation rounded) :
    (∃ result, computation = .ok result) ↔ ∀ x ∈ rounded, isFinite x := by
  have finite : rounded.findSome? fault? = none ↔ ∀ x ∈ rounded, isFinite x := by
    rw [List.findSome?_eq_none_iff]
    exact forall₂_congr fun x _ => fault?_eq_none
  rw [← finite]
  unfold FailsAt at fails
  cases fault : rounded.findSome? fault? with
  | some e =>
    rw [fault] at fails
    rw [fails]
    simp
  | none =>
    rw [fault] at fails
    simp [fails]

end FailsAt

/-- What is rounded for a number on the way from `a` to `b`: its ten-thousandfold and a half. -/
def scaledNumber (a b : Numeral) (t : Float) : Float := lerp (ofNumeral a) (ofNumeral b) t * 10000.0 + 0.5

def scaledChannel (a b : Nat) (t : Float) : Float :=
  lerp (ofNumeral ⟨false, a, 0⟩) (ofNumeral ⟨false, b, 0⟩) t + 0.5

def argumentsFit : List Text → List Text → Bool
  | a :: rest, b :: rest' =>
    (((argument? a).isSome && (argument? b).isSome) || a = b) && argumentsFit rest rest'
  | _, _ => true

def roundedArguments (t : Float) : List Text → List Text → List Float
  | a :: rest, b :: rest' =>
    match argument? a, argument? b with
    | some (x, _), some (y, _) => scaledNumber x y t :: roundedArguments t rest rest'
    | _, _ => if a = b then roundedArguments t rest rest' else []
  | _, _ => []

def roundedCalls (t : Float) : List FunctionCall → List FunctionCall → List Float
  | f :: rest, g :: rest' =>
    if f.name ≠ g.name ∨ f.arguments.length ≠ g.arguments.length then []
    else roundedArguments t f.arguments g.arguments ++
      if argumentsFit f.arguments g.arguments then roundedCalls t rest rest' else []
  | _, _ => []

/-- What is rounded for two values, in this order. Path data is not among them: a number of it that has no
    nearest decimal stays as it is. -/
def roundedNumbers (start finish : ValueKind) (t : Float) : List Float :=
  match start, finish with
  | .color r g b, .color r' g' b' => [scaledChannel r r' t, scaledChannel g g' t, scaledChannel b b' t]
  | .functions calls, .functions calls' => if calls.length = calls'.length then roundedCalls t calls calls' else []
  | .measure a unit, .measure b unit' => if unit = unit' then [scaledNumber a b t] else []
  | .number a, .number b => [scaledNumber a b t]
  | _, _ => []

theorem floor_failsAt (x : Float) : FailsAt (Binary64.floor x) [x] := by
  unfold FailsAt
  rw [List.findSome?_singleton]
  cases fault : fault? x with
  | some e => exact floor_of_fault fault
  | none => exact floor_of_isFinite (fault?_eq_none.mp fault)

theorem roundTo_failsAt (x : Float) : FailsAt (roundTo 4 x) [x * 10000.0 + 0.5] := by
  unfold FailsAt
  rw [List.findSome?_singleton]
  cases fault : fault? (x * 10000.0 + 0.5) with
  | some e => exact roundTo_of_fault fault
  | none =>
    obtain ⟨y, rounded, -⟩ := roundTo_of_isFinite (fault?_eq_none.mp fault)
    exact ⟨y, rounded⟩

theorem blendNumber_failsAt (a b : Numeral) (t : Float) : FailsAt (blendNumber a b t) [scaledNumber a b t] :=
  (roundTo_failsAt (lerp (ofNumeral a) (ofNumeral b) t)).map text

theorem blendChannel_failsAt (a b : Nat) (t : Float) : FailsAt (blendChannel a b t) [scaledChannel a b t] :=
  (floor_failsAt (scaledChannel a b t)).map channelText

theorem blendColor_failsAt (a b : Nat × Nat × Nat) (t : Float) :
    FailsAt (blendColor a b t)
      [scaledChannel a.1 b.1 t, scaledChannel a.2.1 b.2.1 t, scaledChannel a.2.2 b.2.2 t] := by
  refine (blendChannel_failsAt a.1 b.1 t).bind fun red _ => ?_
  refine (blendChannel_failsAt a.2.1 b.2.1 t).bind fun green _ => ?_
  exact (blendChannel_failsAt a.2.2 b.2.2 t).map fun blue => '#' :: red ++ green ++ blue

inductive ArgumentBlends (t : Float) : Text → Text → Text → Prop
  | numbers {a b unit unit' lexeme : Text} {x y : Numeral} (first : argument? a = some (x, unit))
      (second : argument? b = some (y, unit')) (number : blendNumber x y t = .ok lexeme) :
      ArgumentBlends t a b (lexeme ++ if unit.isEmpty then unit' else unit)
  | same {a : Text} (noNumber : argument? a = none) : ArgumentBlends t a a a

theorem blendArguments_cons {t : Float} {a b : Text} {rest rest' : List Text} {blended : Option (List Text)}
    (computed : blendArguments t (a :: rest) (b :: rest') = .ok blended) :
    (∃ first others, ArgumentBlends t a b first ∧ blendArguments t rest rest' = .ok others ∧
        blended = others.map (first :: ·)) ∨
      ((argument? a).isSome && (argument? b).isSome) = false ∧ a ≠ b ∧ blended = none := by
  have unlike (noNumbers : ((argument? a).isSome && (argument? b).isSome) = false)
      (computed : (if a = b then blendArguments t rest rest' >>= fun others => .ok (others.map (a :: ·))
        else .ok none) = .ok blended) :
      (∃ first others, ArgumentBlends t a b first ∧ blendArguments t rest rest' = .ok others ∧
          blended = others.map (first :: ·)) ∨
        ((argument? a).isSome && (argument? b).isSome) = false ∧ a ≠ b ∧ blended = none := by
    by_cases same : a = b
    · subst same
      rw [if_pos rfl] at computed
      obtain ⟨others, later, whole⟩ := bind_eq_ok computed
      cases whole
      have noNumber : argument? a = none := by simpa using noNumbers
      exact .inl ⟨a, others, .same noNumber, later, rfl⟩
    · rw [if_neg same] at computed
      cases computed
      exact .inr ⟨noNumbers, same, rfl⟩
  unfold blendArguments at computed
  cases first : argument? a with
  | none =>
    rw [first] at computed unlike
    exact unlike rfl computed
  | some number =>
    cases second : argument? b with
    | none =>
      rw [first, second] at computed unlike
      exact unlike rfl computed
    | some number' =>
      rw [first, second] at computed
      obtain ⟨lexeme, blends, computed⟩ := bind_eq_ok computed
      obtain ⟨others, later, whole⟩ := bind_eq_ok computed
      cases whole
      exact .inl ⟨_, others, .numbers first second blends, later, rfl⟩

theorem blendArguments_failsAt (t : Float) (arguments arguments' : List Text) :
    FailsAt (blendArguments t arguments arguments') (roundedArguments t arguments arguments') := by
  induction arguments generalizing arguments' with
  | nil => exact .pure (some [])
  | cons a rest ih =>
    cases arguments' with
    | nil => exact .pure (some [])
    | cons b rest' =>
      have unlike : FailsAt (if a = b then blendArguments t rest rest' >>= fun others => .ok (others.map (a :: ·))
          else .ok none) (if a = b then roundedArguments t rest rest' else []) := by
        split
        · exact (ih rest').map _
        · exact .pure none
      unfold blendArguments roundedArguments
      cases argument? a with
      | none => exact unlike
      | some first =>
        cases argument? b with
        | none => exact unlike
        | some second => exact (blendNumber_failsAt first.1 second.1 t).bind fun number _ => (ih rest').map _

theorem isSome_blendArguments {t : Float} {arguments arguments' : List Text} {blended : Option (List Text)}
    (computed : blendArguments t arguments arguments' = .ok blended) :
    blended.isSome = argumentsFit arguments arguments' := by
  induction arguments generalizing arguments' blended with
  | nil =>
    cases computed
    rfl
  | cons a rest ih =>
    cases arguments' with
    | nil =>
      cases computed
      rfl
    | cons b rest' =>
      unfold argumentsFit
      rcases blendArguments_cons computed with ⟨first, others, blends, later, rfl⟩ | ⟨noNumbers, apart, rfl⟩
      · have fits : (((argument? a).isSome && (argument? b).isSome) || decide (a = b)) = true := by
          cases blends with
          | numbers first second => rw [first, second]; rfl
          | same => simp
        rw [Option.isSome_map, ih later, fits, Bool.true_and]
      · rw [noNumbers, decide_eq_false apart]
        rfl

theorem blendCalls_failsAt (t : Float) (calls calls' : List FunctionCall) :
    FailsAt (blendCalls t calls calls') (roundedCalls t calls calls') := by
  induction calls generalizing calls' with
  | nil => exact .pure (some [])
  | cons f rest ih =>
    cases calls' with
    | nil => exact .pure (some [])
    | cons g rest' =>
      unfold blendCalls roundedCalls
      split
      · exact .pure none
      · refine (blendArguments_failsAt t f.arguments g.arguments).bind fun blended computed => ?_
        -- The functions that follow are blended only if the arguments of this one fit.
        rw [← isSome_blendArguments computed]
        cases blended with
        | none => exact .pure none
        | some arguments => exact (ih rest').map _

theorem blend_failsAt (start finish : Value) (t : Float) :
    FailsAt (start.blend finish t) (roundedNumbers start.kind finish.kind t) := by
  obtain ⟨raw, kind⟩ := start
  obtain ⟨raw', kind'⟩ := finish
  cases kind with
  | color r g b =>
    cases kind' with
    | color r' g' b' => exact blendColor_failsAt (r, g, b) (r', g', b') t
    | _ => exact .pure _
  | functions calls =>
    cases kind' with
    | functions calls' =>
      simp only [Value.blend, roundedNumbers]
      split
      · have blended := (blendCalls_failsAt t calls calls').map fun texts? =>
          (texts?.map (Text.joinWith [' '])).getD (switch raw raw' t)
        convert blended using 2
        funext texts?
        cases texts? <;> rfl
      · exact .pure _
    | _ => exact .pure _
  | measure a unit =>
    cases kind' with
    | measure b unit' =>
      simp only [Value.blend, roundedNumbers]
      split
      · exact (blendNumber_failsAt a b t).map (· ++ unit)
      · exact .pure _
    | _ => exact .pure _
  | number a =>
    cases kind' with
    | number b => exact blendNumber_failsAt a b t
    | _ => exact .pure _
  | path tokens =>
    cases kind' with
    | path tokens' =>
      simp only [Value.blend, roundedNumbers]
      cases blendPath t tokens tokens' <;> exact .pure _
    | _ => exact .pure _
  | other => exact .pure _

/-- The numbers that are rounded between two texts, once `progress` is eased. -/
def roundedBetween (start finish : Text) (progress : Float) (timing : Option Text) : List Float :=
  roundedNumbers (classify start).kind (classify finish).kind ((Easing.ofOption timing).apply progress)

/-- Between two keyframes there is a text if and only if every number that has to be rounded is finite. If
    one is not, the fault is that of the first such number. -/
theorem interpolate_fails_iff_not_finite (start finish : Text) (progress : Float) (timing : Option Text) :
    ((∃ result, interpolate start finish progress timing = .ok result) ↔
        progress ≤ 0.0 ∨ 1.0 ≤ progress ∨ ∀ x ∈ roundedBetween start finish progress timing, isFinite x) ∧
      ∀ fault, interpolate start finish progress timing = .error fault ↔
        ¬ progress ≤ 0.0 ∧ ¬ 1.0 ≤ progress ∧
          (roundedBetween start finish progress timing).findSome? fault? = some fault := by
  have fails : FailsAt ((classify start).blend (classify finish) ((Easing.ofOption timing).apply progress))
      (roundedBetween start finish progress timing) := blend_failsAt _ _ _
  unfold interpolate
  have below : le progress 0.0 = true ↔ progress ≤ 0.0 := decide_eq_true_iff
  have above : le 1.0 progress = true ↔ 1.0 ≤ progress := decide_eq_true_iff
  simp only [below, above]
  have whole (t : Text) : (∃ result, (pure t : Except NumberError Text) = .ok result) ∧
      ∀ fault, ¬ (pure t : Except NumberError Text) = .error fault := by
    refine ⟨⟨t, rfl⟩, ?_⟩
    intro fault failed
    cases failed
  by_cases low : progress ≤ 0.0
  · simpa [low] using whole start
  · by_cases high : 1.0 ≤ progress
    · simpa [low, high] using whole finish
    · simp only [low, high, if_false, false_or, not_false_eq_true, true_and]
      exact ⟨fails.ok_iff, fails.error_iff⟩

example : interpolate "0".toList "1e308".toList (0.5 : Float) none = .error .tooLarge := by decide +kernel

end Flipbook
