import Flipbook.Proofs.Text.Parentheses
import Flipbook.Proofs.Value.SameShape

namespace Flipbook

open Binary64 Scalar Text

theorem paired_of_isMeasureChar {t : Text} (inside : ∀ c ∈ t, isMeasureChar c) : Paired t := by
  refine paired_of_free (fun opening => ?_) fun closing => ?_
  · cases inside '(' opening
  · cases inside ')' closing

theorem isMeasureChar_of_isAsciiLetter {c : Char} (letter : isAsciiLetter c) : isMeasureChar c := by
  unfold isMeasureChar
  rw [letter, Bool.or_true]
  rfl

theorem isMeasureChar_of_mem_sheetText (x : Float) : ∀ c ∈ sheetText x, isMeasureChar c := by
  by_cases finite : isFinite x
  · exact (sheetText_numeral finite).isMeasureChar
  · unfold isFinite at finite
    unfold sheetText whole? plainText Style.text
    cases shape : parts x with
    | finite negative mantissa exponent =>
      rw [shape] at finite
      exact absurd rfl finite
    | infinite negative =>
      refine List.all_eq_true.mp ?_
      cases negative <;> decide +kernel
    | notANumber => exact List.all_eq_true.mp (by decide +kernel)

theorem isMeasureChar_of_read? {t : Text} {reading : Numeral.Reading} (read : Numeral.read? t = some reading)
    (ends : reading.rest = [] ∨ IsUnit reading.rest) : ∀ c ∈ t, isMeasureChar c := by
  intro c member
  rw [← Numeral.lexeme_append_rest read] at member
  rcases List.mem_append.mp member with inNumeral | inUnit
  · rcases char_of_read? read c inNumeral with digit | mark
    · unfold isMeasureChar
      rw [digit]
      rfl
    · have marks : ['.', '-', '+', 'e', 'E'].all isMeasureChar := by decide
      exact List.all_eq_true.mp marks c mark
  · rcases ends with nothing | isUnit
    · rw [nothing] at inUnit
      cases inUnit
    · exact isUnit.isMeasureChar c inUnit

theorem isMeasureChar_of_argument? {argument unit : Text} {amount : Numeral}
    (read : argument? argument = some (amount, unit)) {c : Char} (member : c ∈ argument) (solid : isBlank c = false) :
    isMeasureChar c := by
  rcases Option.or_eq_some_iff.mp read with measured | ⟨-, number⟩
  · have isUnit := isUnit_of_measure? measured
    unfold measure? at measured
    split at measured
    · rename_i reading written
      split at measured
      · cases measured
        exact isMeasureChar_of_read? written (.inr isUnit) c (mem_trim_of_solid member solid)
      · cases measured
    · cases measured
  · obtain ⟨_, number, -⟩ := Option.map_eq_some_iff.mp number
    unfold Numeral.ofText? at number
    split at number
    · rename_i written
      exact isMeasureChar_of_read? written (.inl rfl) c member
    · cases number

def FunctionCall.openings (call : FunctionCall) : Nat := (call.arguments.map (·.count '(')).sum

theorem FunctionCall.Legible.leavesOpen {call : FunctionCall} (legible : call.Legible) :
    LeavesOpen call.openings call.text := by
  have name : Paired call.name := by
    refine paired_of_free (fun opening => ?_) fun closing => ?_
    · cases legible.name_inside '(' opening
    · cases legible.name_inside ')' closing
  have opening : LeavesOpen 1 ['('] := by
    have leaves := leavesOpen_of_unclosed (t := ['(']) (by decide)
    exact leaves
  have comma : Paired ", ".toList := paired_of_free (by decide) (by decide)
  have arguments : LeavesOpen call.openings (joinWith ", ".toList (call.arguments.map id)) :=
    leavesOpen_joinWith comma fun argument member => leavesOpen_of_unclosed (legible.unclosed argument member)
  have inside := (name.append opening).append arguments
  rw [Nat.zero_add, Nat.add_comm, List.map_id] at inside
  have closed := inside.close
  simpa [FunctionCall.text] using closed

theorem ArgumentBlends.count_opening {t : Float} {a b blended : Text} (blends : ArgumentBlends t a b blended) :
    blended.count '(' = a.count '(' := by
  cases blends with
  | same => rfl
  | numbers first second number =>
    have before : '(' ∉ a := by
      intro opening
      cases isMeasureChar_of_argument? first opening (by decide)
    have after := isMeasureChar_of_blendNumber number (isUnit_of_arguments first second)
    rw [List.count_eq_zero.mpr before, List.count_eq_zero.mpr fun opening => by cases after '(' opening]

theorem CallBlends.openings_eq {t : Float} {f g blended : FunctionCall} (blends : CallBlends t f g blended) :
    blended.openings = f.openings :=
  congrArg List.sum (blends.arguments.map_eq fun _ _ _ blends => blends.count_opening)

/-- The parentheses that are left open between two kinds: those in the arguments of calls that blend. -/
def ValueKind.openings (start finish : ValueKind) : Nat :=
  match start with
  | .functions calls => if start.fits finish then (calls.map FunctionCall.openings).sum else 0
  | _ => 0

theorem openings_of_apart {start finish : ValueKind} (apart : start.fits finish = false) :
    start.openings finish = 0 := by
  unfold ValueKind.openings
  split
  · rw [if_neg (by simp [apart])]
  · rfl

theorem isSome_of_mapM {α β : Type} {f : α → Option β} {items : List α} {results : List β}
    (mapped : items.mapM f = some results) : ∀ item ∈ items, (f item).isSome := by
  induction items generalizing results with
  | nil => simp
  | cons item items ih =>
    rw [List.mapM_cons] at mapped
    obtain ⟨result, first, mapped⟩ := Option.bind_eq_some_iff.mp mapped
    obtain ⟨others, later, -⟩ := Option.bind_eq_some_iff.mp mapped
    exact List.forall_mem_cons.mpr ⟨by rw [first]; rfl, ih later⟩

theorem paired_of_hexDigits {digits : Text} (areDigits : ∀ c ∈ digits, (hexDigit? c).isSome) :
    Paired ('#' :: digits) := by
  have apart (c : Char) (noSign : c ≠ '#') (noDigit : hexDigit? c = none) : c ∉ '#' :: digits := by
    intro member
    rcases List.mem_cons.mp member with same | inside
    · exact noSign same
    · have isDigit := areDigits c inside
      rw [noDigit] at isDigit
      cases isDigit
  exact paired_of_free (apart '(' (by decide) (by decide)) (apart ')' (by decide) (by decide))

theorem paired_of_color? {t : Text} {kind : ValueKind} (read : color? t = some kind) : Paired t := by
  unfold color? at read
  split at read
  · rename_i digits
    cases mapped : digits.mapM hexDigit? with
    | none =>
      rw [mapped] at read
      cases read
    | some values => exact paired_of_hexDigits (isSome_of_mapM mapped)
  · cases read

theorem ColorText.paired {t : Text} (text : ColorText t) : Paired t := by
  cases text with
  | mk digits =>
    refine paired_of_hexDigits fun c member => ?_
    exact Option.isSome_iff_exists.mpr (hexDigit?_of_mem_lowercaseHex (digits c member))

theorem paired_text_classify {t : Text} (paired : Paired t) : Paired (classify t).text := by
  unfold classify
  split
  · rename_i kind color
    exact paired_of_color? color
  · split
    · exact paired
    · split
      · exact paired
      · split
        · exact paired
        · split <;> exact paired

theorem TokenBlends.paired {t : Float} {a b : PathToken} {blended : Text} (blends : TokenBlends t a b blended)
    (letter : ∀ letter, a = .command letter → isAsciiLetter letter) : Paired blended := by
  cases blends with
  | command c =>
    refine paired_of_isMeasureChar (List.forall_mem_singleton.mpr ?_)
    exact isMeasureChar_of_isAsciiLetter (letter c rfl)
  | number => exact paired_of_isMeasureChar (isMeasureChar_of_mem_sheetText _)

theorem blend_leavesOpen {start finish : Value} (legible : start.kind.Legible) (paired : Paired start.text)
    (paired' : Paired finish.text) {t : Float} {result : Text} (computed : start.blend finish t = .ok result) :
    LeavesOpen (start.kind.openings finish.kind) result := by
  cases blendsTo_of_blend computed with
  | switches apart =>
    rw [openings_of_apart apart]
    rcases switch_eq start.text finish.text t with same | same
    · rw [same]; exact paired
    · rw [same]; exact paired'
  | color first second computed =>
    rw [first]
    exact (colorText_of_blendColor computed).paired
  | functions first second fit triples =>
    rw [first] at legible
    have legible' := triples.forall_mem legible.2 fun _ _ _ blends => blends.legible
    have space : Paired [' '] := paired_of_free (by decide) (by decide)
    have leaves := leavesOpen_joinWith space fun call member => (legible' call member).leavesOpen
    rw [triples.map_eq fun _ _ _ blends => blends.openings_eq] at leaves
    simpa [first, second, ValueKind.openings, ValueKind.fits, fit] using leaves
  | measure first second number =>
    rw [first] at legible ⊢
    exact paired_of_isMeasureChar (isMeasureChar_of_blendNumber number (.inr legible))
  | number first second number =>
    rw [first]
    exact paired_of_isMeasureChar (numeralText_of_blendNumber number).isMeasureChar
  | @path tokens tokens' texts first second triples blended =>
    rw [first] at legible ⊢
    have space : Paired [' '] := paired_of_free (by decide) (by decide)
    have paired : ∀ text ∈ texts, Paired text := by
      refine triples.forall_mem (P := (· ∈ tokens)) (fun _ member => member) fun a b c blends member => ?_
      refine blends.paired fun letter same => ?_
      subst same
      exact (legible.1 letter member).1
    have leaves : LeavesOpen (texts.map fun _ => 0).sum (joinWith [' '] (texts.map id)) :=
      leavesOpen_joinWith space paired
    simpa [ValueKind.openings] using leaves

def leftOpen (start finish : Text) (progress : Float) : Nat :=
  if progress ≤ 0.0 ∨ 1.0 ≤ progress then 0 else (classify start).kind.openings (classify finish).kind

/-- Between the keyframes, in function lists that blend, the arguments of a call open a parenthesis: the first one
    that is closed in them ends the call. -/
def CutsCall (start finish : Text) (progress : Float) : Prop :=
  ¬progress ≤ 0.0 ∧ ¬1.0 ≤ progress ∧ (classify start).kind.fits (classify finish).kind ∧
    ∃ calls, (classify start).kind = .functions calls ∧ ∃ call ∈ calls, ∃ argument ∈ call.arguments, '(' ∈ argument

theorem openings_eq_zero_iff {calls : List FunctionCall} :
    (calls.map FunctionCall.openings).sum = 0 ↔ ∀ call ∈ calls, ∀ argument ∈ call.arguments, '(' ∉ argument := by
  simp [FunctionCall.openings, List.sum_eq_zero_iff, List.count_eq_zero]

theorem leftOpen_eq_zero_iff {start finish : Text} {progress : Float} :
    leftOpen start finish progress = 0 ↔ ¬CutsCall start finish progress := by
  unfold leftOpen CutsCall ValueKind.openings
  by_cases moves : progress ≤ 0.0 ∨ 1.0 ≤ progress
  · rw [if_pos moves]
    refine iff_of_true rfl ?_
    rintro ⟨started, unfinished, -⟩
    exact moves.elim started unfinished
  · rw [if_neg moves]
    obtain ⟨started, unfinished⟩ := not_or.mp moves
    cases kind : (classify start).kind with
    | functions calls =>
      dsimp only
      split
      · rename_i fits
        rw [openings_eq_zero_iff]
        simp [started, unfinished, fits]
      · rename_i apart
        simp [apart]
    | _ => simp

/-- Between two texts with paired parentheses the result closes none that it did not open, and leaves open just those
    in the arguments of calls that blend. So its parentheses are paired if and only if no call is cut. -/
theorem interpolate_leavesOpen {start finish : Text} (paired : Paired start) (paired' : Paired finish)
    {progress : Float} {timing : Option Text} {result : Text}
    (computed : interpolate start finish progress timing = .ok result) :
    LeavesOpen (leftOpen start finish progress) result ∧ (Paired result ↔ ¬CutsCall start finish progress) := by
  have leaves : LeavesOpen (leftOpen start finish progress) result := by
    have below : le progress 0.0 = true ↔ progress ≤ 0.0 := decide_eq_true_iff
    have above : le 1.0 progress = true ↔ 1.0 ≤ progress := decide_eq_true_iff
    unfold interpolate at computed
    unfold leftOpen
    simp only [below, above] at computed
    split at computed
    · rename_i atStart
      cases computed
      rw [if_pos (.inl atStart)]
      exact paired
    · rename_i started
      split at computed
      · rename_i atFinish
        cases computed
        rw [if_pos (.inr atFinish)]
        exact paired'
      · rename_i unfinished
        rw [if_neg (not_or.mpr ⟨started, unfinished⟩)]
        exact blend_leavesOpen (legible_classify start) (paired_text_classify paired) (paired_text_classify paired')
          computed
  exact ⟨leaves, leaves.paired_iff.trans leftOpen_eq_zero_iff⟩

theorem interpolate_leavesOpen_shadow :
    Paired "drop-shadow(0 rgb(0,0,0))".toList ∧ Paired "drop-shadow(4px rgb(0,0,0))".toList ∧
      interpolate "drop-shadow(0 rgb(0,0,0))".toList "drop-shadow(4px rgb(0,0,0))".toList (0.5 : Float) none =
        .ok "drop-shadow(2px, rgb(0, 0, 0)".toList ∧
      LeavesOpen (leftOpen "drop-shadow(0 rgb(0,0,0))".toList "drop-shadow(4px rgb(0,0,0))".toList 0.5)
        "drop-shadow(2px, rgb(0, 0, 0)".toList ∧
      (Paired "drop-shadow(2px, rgb(0, 0, 0)".toList ↔
        ¬CutsCall "drop-shadow(0 rgb(0,0,0))".toList "drop-shadow(4px rgb(0,0,0))".toList 0.5) := by
  have paired : Paired "drop-shadow(0 rgb(0,0,0))".toList := by decide +kernel
  have paired' : Paired "drop-shadow(4px rgb(0,0,0))".toList := by decide +kernel
  have computed : interpolate "drop-shadow(0 rgb(0,0,0))".toList "drop-shadow(4px rgb(0,0,0))".toList (0.5 : Float)
      none = .ok "drop-shadow(2px, rgb(0, 0, 0)".toList := by decide +kernel
  exact ⟨paired, paired', computed, interpolate_leavesOpen paired paired' computed⟩

example : ¬Paired "drop-shadow(2px, rgb(0, 0, 0)".toList := by decide +kernel

end Flipbook
