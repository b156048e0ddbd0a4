import Flipbook.Proofs.Outcome
import Flipbook.Proofs.Value.KindText
import Flipbook.Value.Blend
import Mathlib.Tactic.NormNum

namespace Flipbook

open Scalar Text

theorem lerp_self (a t : Rat) : lerp a a t = a := by
  have unfolded : lerp a a t = a + (a - a) * t := rfl
  rw [unfolded, sub_self, zero_mul, add_zero]

def fourPlaces (x : Rat) : Rat := ((x * 10000 + 1 / 2).floor : Rat) / 10000

theorem roundTo_four_rat (x : Rat) : roundTo 4 x = .ok (fourPlaces x) := by
  have unfolded : roundTo 4 x =
      .ok (((x * (((pow10 4 : Nat) : Int) / (1 : Nat)) + 0.5).floor : Rat) / ((pow10 4 : Nat) : Rat)) := rfl
  have scale : pow10 4 = 10000 := rfl
  rw [unfolded, scale]
  unfold fourPlaces
  norm_num

theorem roundOrKeep_rat (x : Rat) : roundOrKeep x = fourPlaces x := by
  have unfolded : roundOrKeep x = (((x * 10000.0 + 0.5).floor : Rat) / (1 : Nat)) / 10000.0 := rfl
  rw [unfolded]
  unfold fourPlaces
  norm_num

theorem roundHalfUp_natCast (n : Nat) : roundHalfUp (n : Rat) = .ok n := by
  have unfolded : roundHalfUp (n : Rat) = .ok ((n : Rat) + 0.5).floor := rfl
  have whole : ((n : Rat) + 0.5).floor = (n : Int) := by
    change ⌊(n : Rat) + 0.5⌋ = (n : Int)
    rw [Int.floor_eq_iff]
    constructor <;> norm_num
  rw [unfolded, whole]

theorem toRat_natural (n : Nat) : Numeral.toRat ⟨false, n, 0⟩ = n := by
  simp [Numeral.toRat, Decimal.toRat]

def settledNumber (a : Numeral) : Text := text (fourPlaces a.toRat)

def settledArgument (argument : Text) : Text :=
  match argument? argument with
  | some (amount, unit) => settledNumber amount ++ unit
  | none => argument

def settledCall (call : FunctionCall) : Text :=
  FunctionCall.text ⟨call.name, call.arguments.map settledArgument⟩

def settledToken : PathToken → Text
  | .command letter => [letter]
  | .number _ value => settledNumber value

/-- The text that a value has between two keyframes that both have it. -/
def Value.settled (v : Value) : Text :=
  match v.kind with
  | .color red green blue => '#' :: channelText red ++ channelText green ++ channelText blue
  | .functions calls => joinWith [' '] (calls.map settledCall)
  | .measure amount unit => settledNumber amount ++ unit
  | .number amount => settledNumber amount
  | .path tokens => joinWith [' '] (tokens.map settledToken)
  | .other => v.text

variable (t : Rat)

theorem switch_self (same : Text) : switch same same t = same := ite_self same

theorem blendNumber_self (a : Numeral) : blendNumber a a t = .ok (settledNumber a) := by
  unfold blendNumber
  rw [lerp_self, roundTo_four_rat]
  rfl

theorem blendChannel_self (n : Nat) : blendChannel n n t = .ok (channelText n) := by
  unfold blendChannel
  have exact : (ofNumeral ⟨false, n, 0⟩ : Rat) = n := toRat_natural n
  simp only [exact]
  rw [lerp_self, roundHalfUp_natCast]
  rfl

theorem blendColor_self (color : Nat × Nat × Nat) :
    blendColor color color t =
      .ok ('#' :: channelText color.1 ++ channelText color.2.1 ++ channelText color.2.2) := by
  unfold blendColor
  rw [blendChannel_self, blendChannel_self, blendChannel_self]
  rfl

theorem blendArguments_self (arguments : List Text) :
    blendArguments t arguments arguments = .ok (some (arguments.map settledArgument)) := by
  induction arguments with
  | nil => rfl
  | cons a rest ih =>
    unfold blendArguments
    rw [List.map_cons, settledArgument]
    cases argument? a with
    | none =>
      dsimp only
      rw [if_pos rfl, ih]
      rfl
    | some number =>
      obtain ⟨amount, unit⟩ := number
      dsimp only
      rw [blendNumber_self, ih, ite_self]
      rfl

theorem blendCalls_self (calls : List FunctionCall) :
    blendCalls t calls calls = .ok (some (calls.map settledCall)) := by
  induction calls with
  | nil => rfl
  | cons f rest ih =>
    unfold blendCalls
    rw [if_neg (by simp), blendArguments_self, ok_bind]
    dsimp only
    rw [ih]
    rfl

theorem blendPath_self (tokens : List PathToken) : blendPath t tokens tokens = some (tokens.map settledToken) := by
  induction tokens with
  | nil => rfl
  | cons token rest ih =>
    cases token with
    | command letter =>
      unfold blendPath
      rw [if_pos rfl, ih]
      rfl
    | number lexeme value =>
      unfold blendPath
      rw [ih, lerp_self, roundOrKeep_rat]
      rfl

theorem blend_self (v : Value) : v.blend v t = .ok v.settled := by
  unfold Value.blend Value.settled
  cases v.kind with
  | color red green blue => exact blendColor_self t (red, green, blue)
  | functions calls =>
    dsimp only
    rw [if_pos rfl, blendCalls_self]
    rfl
  | measure amount unit =>
    dsimp only
    rw [if_pos rfl, blendNumber_self]
    rfl
  | number amount => exact blendNumber_self t amount
  | path tokens =>
    dsimp only
    rw [blendPath_self]
    rfl
  | other =>
    dsimp only
    rw [switch_self]
    rfl

/-- Between two keyframes with the same value the progress and the timing function do not show. -/
theorem interpolate_constant (v : Text) {p q : Rat} (pInside : 0 < p ∧ p < 1) (qInside : 0 < q ∧ q < 1)
    (timing timing' : Option Text) :
    ∃ constant, interpolate v v p timing = .ok constant ∧ interpolate v v q timing' = .ok constant := by
  have settles {r : Rat} (inside : 0 < r ∧ r < 1) (timing : Option Text) :
      interpolate v v r timing = .ok (classify v).settled := by
    have started : le r 0.0 = false := decide_eq_false (by norm_num; exact inside.1)
    have unfinished : le 1.0 r = false := decide_eq_false (by norm_num; exact inside.2)
    unfold interpolate
    rw [started, unfinished]
    exact blend_self _ _
  exact ⟨_, settles pInside timing, settles qInside timing'⟩

theorem interpolate_constant_turning :
    ((0 : Rat) < 1 / 3 ∧ (1 / 3 : Rat) < 1) ∧ ((0 : Rat) < 9 / 10 ∧ (9 / 10 : Rat) < 1) ∧
      ∃ constant,
        interpolate "rotate(10deg) var(a, .12345)".toList "rotate(10deg) var(a, .12345)".toList (1 / 3 : Rat)
            (some "cubic-bezier(.5, -7, .5, 8)".toList) = .ok constant ∧
          interpolate "rotate(10deg) var(a, .12345)".toList "rotate(10deg) var(a, .12345)".toList (9 / 10 : Rat)
            (some "ease".toList) = .ok constant := by
  have first : (0 : Rat) < 1 / 3 ∧ (1 / 3 : Rat) < 1 := by norm_num
  have second : (0 : Rat) < 9 / 10 ∧ (9 / 10 : Rat) < 1 := by norm_num
  exact ⟨first, second, interpolate_constant _ first second _ _⟩

end Flipbook
