import Flipbook.Proofs.Value.Faults
import Flipbook.Proofs.Value.KindText

namespace Flipbook

open Scalar Text

inductive Triples {α β γ : Type} (R : α → β → γ → Prop) : List α → List β → List γ → Prop
  | nil : Triples R [] [] []
  | cons {a : α} {b : β} {c : γ} {as : List α} {bs : List β} {cs : List γ} (first : R a b c)
      (others : Triples R as bs cs) : Triples R (a :: as) (b :: bs) (c :: cs)

namespace Triples

variable {α β γ : Type} {R : α → β → γ → Prop} {as : List α} {bs : List β} {cs : List γ}

theorem forall₂ {S : α → γ → Prop} (triples : Triples R as bs cs) (outer : ∀ a b c, R a b c → S a c) :
    List.Forall₂ S as cs := by
  induction triples with
  | nil => exact .nil
  | cons first others ih => exact .cons (outer _ _ _ first) ih

theorem forall_mem {P : α → Prop} {Q : γ → Prop} (triples : Triples R as bs cs) (holds : ∀ a ∈ as, P a)
    (step : ∀ a b c, R a b c → P a → Q c) : ∀ c ∈ cs, Q c := by
  induction triples with
  | nil => simp
  | cons first others ih =>
    obtain ⟨here, later⟩ := List.forall_mem_cons.mp holds
    exact List.forall_mem_cons.mpr ⟨step _ _ _ first here, ih later⟩

theorem map_eq {δ : Type} {f : α → δ} {g : γ → δ} (triples : Triples R as bs cs)
    (same : ∀ a b c, R a b c → g c = f a) : cs.map g = as.map f := by
  induction triples with
  | nil => rfl
  | cons first others ih => rw [List.map_cons, List.map_cons, same _ _ _ first, ih]

theorem map_eq_zipWith {δ : Type} {f : α → β → δ} {g : γ → δ} (triples : Triples R as bs cs)
    (same : ∀ a b c, R a b c → g c = f a b) : cs.map g = List.zipWith f as bs := by
  induction triples with
  | nil => rfl
  | cons first others ih => rw [List.map_cons, List.zipWith_cons_cons, same _ _ _ first, ih]

theorem any_zip_eq_false {p : α → γ → Bool} (triples : Triples R as bs cs)
    (fails : ∀ a b c, R a b c → p a c = false) : (as.zip cs).any (fun pair => p pair.1 pair.2) = false := by
  induction triples with
  | nil => rfl
  | cons first others ih => rw [List.zip_cons_cons, List.any_cons, fails _ _ _ first, ih, Bool.false_or]

end Triples

/-- What a pair of functions blends to. -/
structure CallBlends (t : Float) (f g blended : FunctionCall) : Prop where
  sameName : f.name = g.name
  name_eq : blended.name = f.name
  arguments : Triples (ArgumentBlends t) f.arguments g.arguments blended.arguments

def callsFit : List FunctionCall → List FunctionCall → Bool
  | f :: rest, g :: rest' =>
    f.name = g.name && f.arguments.length = g.arguments.length && argumentsFit f.arguments g.arguments &&
      callsFit rest rest'
  | [], [] => true
  | _, _ => false

theorem length_eq_of_callsFit {calls calls' : List FunctionCall} (fit : callsFit calls calls') :
    calls.length = calls'.length := by
  induction calls generalizing calls' with
  | nil =>
    cases calls' with
    | nil => rfl
    | cons => cases fit
  | cons f rest ih =>
    cases calls' with
    | nil => cases fit
    | cons g rest' =>
      unfold callsFit at fit
      exact congrArg (· + 1) (ih (Bool.and_eq_true_iff.mp fit).2)

theorem arguments_of_blendArguments {t : Float} {arguments arguments' blended : List Text}
    (sameLength : arguments.length = arguments'.length)
    (computed : blendArguments t arguments arguments' = .ok (some blended)) :
    Triples (ArgumentBlends t) arguments arguments' blended := by
  induction arguments generalizing arguments' blended with
  | nil =>
    obtain rfl : arguments' = [] := List.length_eq_zero_iff.mp sameLength.symm
    cases computed
    exact .nil
  | cons a rest ih =>
    obtain ⟨b, rest', rfl⟩ : ∃ b rest', arguments' = b :: rest' :=
      List.exists_cons_of_length_eq_add_one sameLength.symm
    rcases blendArguments_cons computed with ⟨first, others, blends, later, whole⟩ | ⟨-, -, none⟩
    · obtain ⟨texts, rfl, rfl⟩ := Option.map_eq_some_iff.mp whole.symm
      exact .cons blends (ih (Nat.succ.inj sameLength) later)
    · cases none

theorem blendCalls_cases {t : Float} {calls calls' : List FunctionCall} {texts? : Option (List Text)}
    (sameLength : calls.length = calls'.length) (computed : blendCalls t calls calls' = .ok texts?) :
    callsFit calls calls' = false ∧ texts? = none ∨
      callsFit calls calls' ∧ ∃ blended, Triples (CallBlends t) calls calls' blended ∧
        texts? = some (blended.map FunctionCall.text) := by
  induction calls generalizing calls' texts? with
  | nil =>
    obtain rfl : calls' = [] := List.length_eq_zero_iff.mp sameLength.symm
    cases computed
    exact .inr ⟨rfl, [], .nil, rfl⟩
  | cons f rest ih =>
    obtain ⟨g, rest', rfl⟩ : ∃ g rest', calls' = g :: rest' := List.exists_cons_of_length_eq_add_one sameLength.symm
    unfold blendCalls at computed
    unfold callsFit
    split at computed
    · rename_i otherShape
      cases computed
      refine .inl ⟨?_, rfl⟩
      rcases otherShape with otherName | otherLength
      · simp [otherName]
      · simp [otherLength]
    · rename_i sameShape
      obtain ⟨sameName, sameArguments⟩ := not_or.mp sameShape
      rw [not_not] at sameName sameArguments
      obtain ⟨arguments?, argumentsComputed, computed⟩ := bind_eq_ok computed
      rw [decide_eq_true sameName, decide_eq_true sameArguments, ← isSome_blendArguments argumentsComputed]
      cases arguments? with
      | none =>
        cases computed
        exact .inl ⟨rfl, rfl⟩
      | some arguments =>
        obtain ⟨others, othersComputed, same⟩ := bind_eq_ok computed
        cases same
        rcases ih (Nat.succ.inj sameLength) othersComputed with ⟨unfit, rfl⟩ | ⟨fit, blended, triples, rfl⟩
        · exact .inl ⟨by simp [unfit], rfl⟩
        · refine .inr ⟨by simp [fit], ⟨f.name, arguments⟩ :: blended, .cons ?_ triples, rfl⟩
          exact ⟨sameName, rfl, arguments_of_blendArguments sameArguments argumentsComputed⟩

inductive TokenBlends (t : Float) : PathToken → PathToken → Text → Prop
  | command (letter : Char) : TokenBlends t (.command letter) (.command letter) [letter]
  | number (lexeme lexeme' : Text) (a b : Numeral) :
      TokenBlends t (.number lexeme a) (.number lexeme' b) (text (roundOrKeep (lerp (ofNumeral a) (ofNumeral b) t)))

def pathsFit : List PathToken → List PathToken → Bool
  | .command a :: rest, .command b :: rest' => a = b && pathsFit rest rest'
  | .number .. :: rest, .number .. :: rest' => pathsFit rest rest'
  | [], [] => true
  | _, _ => false

theorem blendPath_cases (t : Float) (tokens tokens' : List PathToken) :
    pathsFit tokens tokens' = false ∧ blendPath t tokens tokens' = none ∨
      pathsFit tokens tokens' ∧ ∃ texts, Triples (TokenBlends t) tokens tokens' texts ∧
        blendPath t tokens tokens' = some texts := by
  fun_induction pathsFit tokens tokens' with
  | case1 a rest b rest' ih =>
    unfold blendPath
    by_cases same : a = b
    · subst same
      rw [if_pos rfl, decide_eq_true rfl, Bool.true_and]
      rcases ih with ⟨unfit, none⟩ | ⟨fit, texts, triples, blended⟩
      · exact .inl ⟨unfit, by rw [none]; rfl⟩
      · exact .inr ⟨fit, [a] :: texts, .cons (.command a) triples, by rw [blended]; rfl⟩
    · rw [if_neg same, decide_eq_false same]
      exact .inl ⟨rfl, rfl⟩
  | case2 lexeme a rest lexeme' b rest' ih =>
    unfold blendPath
    rcases ih with ⟨unfit, none⟩ | ⟨fit, texts, triples, blended⟩
    · exact .inl ⟨unfit, by rw [none]; rfl⟩
    · exact .inr ⟨fit, _ :: texts, .cons (.number ..) triples, by rw [blended]; rfl⟩
  | case3 => exact .inr ⟨rfl, [], .nil, rfl⟩
  | case4 tokens tokens' notCommands notNumbers notNil =>
    refine .inl ⟨rfl, ?_⟩
    unfold blendPath
    split
    · exact (notCommands _ _ _ _ rfl rfl).elim
    · exact (notNumbers _ _ _ _ _ _ rfl rfl).elim
    · exact (notNil rfl rfl).elim
    · rfl

/-- Whether values of these kinds blend: the kind is the same, and so is the shape. -/
def ValueKind.fits : ValueKind → ValueKind → Bool
  | .color .., .color .. => true
  | .functions calls, .functions calls' => callsFit calls calls'
  | .measure _ unit, .measure _ unit' => unit = unit'
  | .number _, .number _ => true
  | .path tokens, .path tokens' => pathsFit tokens tokens'
  | _, _ => false

/-- What two values blend to, by their kinds. -/
inductive BlendsTo (start finish : Value) (t : Float) : Text → Prop
  | switches (apart : start.kind.fits finish.kind = false) : BlendsTo start finish t (switch start.text finish.text t)
  | color {color color' : Nat × Nat × Nat} {blended : Text}
      (first : start.kind = .color color.1 color.2.1 color.2.2)
      (second : finish.kind = .color color'.1 color'.2.1 color'.2.2) (computed : blendColor color color' t = .ok blended) :
      BlendsTo start finish t blended
  | functions {calls calls' blended : List FunctionCall} (first : start.kind = .functions calls)
      (second : finish.kind = .functions calls') (fit : callsFit calls calls')
      (triples : Triples (CallBlends t) calls calls' blended) :
      BlendsTo start finish t (joinWith [' '] (blended.map FunctionCall.text))
  | measure {a b : Numeral} {unit lexeme : Text} (first : start.kind = .measure a unit)
      (second : finish.kind = .measure b unit) (number : blendNumber a b t = .ok lexeme) :
      BlendsTo start finish t (lexeme ++ unit)
  | number {a b : Numeral} {lexeme : Text} (first : start.kind = .number a) (second : finish.kind = .number b)
      (number : blendNumber a b t = .ok lexeme) : BlendsTo start finish t lexeme
  | path {tokens tokens' : List PathToken} {texts : List Text} (first : start.kind = .path tokens)
      (second : finish.kind = .path tokens') (triples : Triples (TokenBlends t) tokens tokens' texts)
      (blended : blendPath t tokens tokens' = some texts) : BlendsTo start finish t (joinWith [' '] texts)

theorem blendsTo_of_blend {start finish : Value} {t : Float} {result : Text}
    (computed : start.blend finish t = .ok result) : BlendsTo start finish t result := by
  obtain ⟨raw, kind⟩ := start
  obtain ⟨raw', kind'⟩ := finish
  have switched (apart : kind.fits kind' = false)
      (same : Except.ok (switch raw raw' t) = (.ok result : Except NumberError Text)) :
      BlendsTo ⟨raw, kind⟩ ⟨raw', kind'⟩ t result := Except.ok.inj same ▸ .switches apart
  -- Values of two kinds switch, those of one kind if their shapes do not fit.
  cases kind with
  | color r g b =>
    cases kind' with
    | color r' g' b' =>
      have channels : blendColor (r, g, b) (r', g', b') t = .ok result := computed
      exact .color rfl rfl channels
    | _ => exact switched rfl computed
  | functions calls =>
    cases kind' with
    | functions calls' =>
      simp only [Value.blend] at computed
      split at computed
      · rename_i sameLength
        obtain ⟨texts?, callsComputed, computed⟩ := bind_eq_ok computed
        rcases blendCalls_cases sameLength callsComputed with ⟨unfit, rfl⟩ | ⟨fit, blended, triples, rfl⟩
        · exact switched unfit computed
        · cases computed
          exact .functions rfl rfl fit triples
      · rename_i otherLength
        exact switched (Bool.eq_false_iff.mpr fun fit => otherLength (length_eq_of_callsFit fit)) computed
    | _ => exact switched rfl computed
  | measure a unit =>
    cases kind' with
    | measure b unit' =>
      simp only [Value.blend] at computed
      split at computed
      · rename_i sameUnit
        obtain ⟨lexeme, number, same⟩ := bind_eq_ok computed
        cases same
        subst sameUnit
        exact .measure rfl rfl number
      · rename_i otherUnit
        exact switched (decide_eq_false otherUnit) computed
    | _ => exact switched rfl computed
  | number a =>
    cases kind' with
    | number b => exact .number rfl rfl computed
    | _ => exact switched rfl computed
  | path tokens =>
    cases kind' with
    | path tokens' =>
      simp only [Value.blend] at computed
      rcases blendPath_cases t tokens tokens' with ⟨unfit, none⟩ | ⟨fit, texts, triples, blended⟩
      · rw [none] at computed
        exact switched unfit computed
      · rw [blended] at computed
        cases computed
        exact .path rfl rfl triples blended
    | _ => exact switched rfl computed
  | other => exact switched rfl computed

end Flipbook
