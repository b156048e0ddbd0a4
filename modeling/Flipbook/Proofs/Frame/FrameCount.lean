import Flipbook.Proofs.Config.Accepted
import Flipbook.Proofs.Number.HalfUp
import Flipbook.Proofs.Value.Faults

namespace Flipbook

open Binary64

namespace Amount

/-- Why an amount has no finite double, if it has none. -/
def fault? (amount : Amount) : Option NumberError :=
  match amount.toFloat with
  | .ok x => Binary64.fault? x
  | .error e => some e

def IsNaN : Amount → Prop
  | whole _ => False
  | binary x => isNaN x

theorem positive_or_isNaN {amount : Amount} (above : amount.isZeroOrLess = false) :
    amount.isPositive ∨ amount.IsNaN := by
  cases amount with
  | whole n =>
    left
    change decide (n ≤ 0) = false at above
    rw [decide_eq_false_iff_not] at above
    apply decide_eq_true
    omega
  | binary x =>
    change decide (x ≤ 0.0) = false at above
    rw [decide_eq_false_iff_not] at above
    exact (pos_or_isNaN above).imp_left decide_eq_true

end Amount

theorem roundHalfUp_failsAt (x : Float) : FailsAt (Scalar.roundHalfUp x) [x] := by
  have half := floor_failsAt (x + 0.5)
  unfold FailsAt at half ⊢
  rw [List.findSome?_singleton, fault?_add_half] at half
  rwa [List.findSome?_singleton]

namespace Timeline

theorem frameCount_of_count {n : Int} (positive : 0 < n) (total : Float) (rate : Amount) :
    frameCount total rate (some (.whole n)) = .ok n := by
  unfold frameCount
  have asked : (Amount.whole n).isPositive = true := decide_eq_true positive
  simp only [asked]
  rfl

theorem frameCount_none (total : Float) (rate : Amount) :
    frameCount total rate none =
      rate.toFloat >>= fun x => Scalar.roundHalfUp (x * total) >>= fun n => .ok (max 1 n) := rfl

theorem frameCount_of_rate {total : Float} (finite : isFinite total) (positive : 0.0 < total) {rate : Amount}
    (product : ∀ x, rate.toFloat = .ok x → isFinite x → isFinite (x * total)) :
    match rate.fault? with
    | some e => frameCount total rate none = .error e
    | none => ∃ n, 1 ≤ n ∧ frameCount total rate none = .ok n := by
  rw [frameCount_none]
  unfold Amount.fault?
  cases rated : rate.toFloat with
  | error e => rfl
  | ok x =>
    have rounds := roundHalfUp_failsAt (x * total)
    cases fault : Binary64.fault? x with
    | some e =>
      have failed : Scalar.roundHalfUp (x * total) = .error e := by
        rw [rounds.error_iff, List.findSome?_singleton, fault?_mul_of_fault fault finite positive]
      simp only [fault]
      change Scalar.roundHalfUp (x * total) >>= _ = _
      rw [failed]
      rfl
    | none =>
      obtain ⟨n, rounded⟩ := rounds.ok_iff.mpr fun y member => by
        rw [List.mem_singleton.mp member]
        exact product x rated (fault?_eq_none.mp fault)
      simp only [fault]
      refine ⟨max 1 n, Int.le_max_left .., ?_⟩
      change Scalar.roundHalfUp (x * total) >>= _ = _
      rw [rounded]
      rfl

/-- Accepted rates and canvas sizes are above zero or not a number. A count that is asked for is kept; a rate
    without a finite double is what remains to fail. -/
theorem frameCount_of_accepted {config : Configuration} {settings : Settings}
    (accepted : Settings.ofConfiguration config = .ok settings) {total : Float} (finite : isFinite total)
    (positive : 0.0 < total)
    (product : ∀ x, settings.frames.rate.toFloat = .ok x → isFinite x → isFinite (x * total)) :
    (settings.frames.rate.isPositive ∨ settings.frames.rate.IsNaN) ∧
      (settings.frames.canvas.isPositive ∨ settings.frames.canvas.IsNaN) ∧
        match settings.frames.count, settings.frames.rate.fault? with
        | none, some e => frameCount total settings.frames.rate settings.frames.count = .error e
        | _, _ => ∃ n, 1 ≤ n ∧ frameCount total settings.frames.rate settings.frames.count = .ok n := by
  have checked := Settings.checked_of_accepted accepted
  refine ⟨Amount.positive_or_isNaN checked.rate, Amount.positive_or_isNaN checked.canvas, ?_⟩
  cases asked : settings.frames.count with
  | some count =>
    obtain ⟨n, rfl, above⟩ := checked.count count asked
    exact ⟨n, above, frameCount_of_count above _ _⟩
  | none =>
    have rated := frameCount_of_rate finite positive product
    cases fault : settings.frames.rate.fault? with
    | some e =>
      rw [fault] at rated
      exact rated
    | none =>
      rw [fault] at rated
      exact rated

def counted : Configuration :=
  .ofSections [("frames".toList, [("fps".toList, .binary 2.5), ("frame_count".toList, .whole 3)]),
    ("canvas".toList, [("size".toList, .binary 0.25)])]

def unrated : Configuration := .ofSections [("frames".toList, [("fps".toList, .binary nan)])]

theorem frameCount_of_accepted_counted :
    (∃ settings, Settings.ofConfiguration counted = .ok settings ∧ settings.frames.rate = .binary 2.5 ∧
      settings.frames.count = some (.whole 3) ∧ settings.frames.canvas = .binary 0.25 ∧ isFinite 5.0 ∧
        (0.0 : Float) < 5.0 ∧ (∀ x, settings.frames.rate.toFloat = .ok x → isFinite x → isFinite (x * 5.0)) ∧
          (settings.frames.canvas.isPositive ∨ settings.frames.canvas.IsNaN) ∧
            ∃ n, 1 ≤ n ∧ frameCount 5.0 settings.frames.rate settings.frames.count = .ok n) ∧
      ∃ settings, Settings.ofConfiguration unrated = .ok settings ∧ settings.frames.count = none ∧
        (settings.frames.rate.isPositive ∨ settings.frames.rate.IsNaN) ∧
          frameCount 5.0 settings.frames.rate settings.frames.count = .error .notANumber := by
  have finite : isFinite 5.0 := by decide +kernel
  have positive : (0.0 : Float) < 5.0 := by decide +kernel
  constructor
  · obtain ⟨settings, accepted, rate, count, canvas⟩ : ∃ settings, Settings.ofConfiguration counted = .ok settings ∧
        settings.frames.rate = .binary 2.5 ∧ settings.frames.count = some (.whole 3) ∧
          settings.frames.canvas = .binary 0.25 := ⟨_, rfl, rfl, rfl, rfl⟩
    have product : ∀ x, settings.frames.rate.toFloat = .ok x → isFinite x → isFinite (x * 5.0) := by
      intro x rated
      rw [rate] at rated
      cases rated
      decide +kernel
    have holds := frameCount_of_accepted accepted finite positive product
    refine ⟨settings, accepted, rate, count, canvas, finite, positive, product, holds.2.1, ?_⟩
    have counts := holds.2.2
    simp only [count] at counts ⊢
    exact counts
  · obtain ⟨settings, accepted, rate, count⟩ : ∃ settings, Settings.ofConfiguration unrated = .ok settings ∧
        settings.frames.rate = .binary nan ∧ settings.frames.count = none := ⟨_, rfl, rfl, rfl⟩
    have product : ∀ x, settings.frames.rate.toFloat = .ok x → isFinite x → isFinite (x * 5.0) := by
      intro x rated finiteRate
      rw [rate] at rated
      cases rated
      exact absurd finiteRate (by decide +kernel)
    have fault : (Amount.binary nan).fault? = some .notANumber := by decide +kernel
    have holds := frameCount_of_accepted accepted finite positive product
    refine ⟨settings, accepted, count, holds.1, ?_⟩
    have fails := holds.2.2
    simp only [rate, count, fault] at fails ⊢
    exact fails

end Timeline

namespace Settings.Checked

variable {settings : Settings}

theorem one_le_frameCount (checked : settings.Checked) {total : Float} {n : Int}
    (counted : Timeline.frameCount total settings.frames.rate settings.frames.count = .ok n) : 1 ≤ n := by
  cases asked : settings.frames.count with
  | some count =>
    obtain ⟨k, rfl, above⟩ := checked.count count asked
    rw [asked, Timeline.frameCount_of_count above] at counted
    cases counted
    exact above
  | none =>
    rw [asked, Timeline.frameCount_none] at counted
    obtain ⟨x, -, counted⟩ := bind_eq_ok counted
    obtain ⟨k, -, same⟩ := bind_eq_ok counted
    cases same
    exact Int.le_max_left 1 k

theorem animate_error (checked : settings.Checked) {keyframes : Table (List Css.Stop)}
    {animations : Table Css.Animation} {document : Text} {e : Frame.CompileError}
    (failed : Frame.animate settings.frames keyframes animations document = .error e) :
    e ≠ .timeline .noFrames ∧ e ≠ .noWorkers := by
  have number {α : Type} {computation : Except NumberError α}
      (faulty : computation.mapError Frame.timelineError = .error e) :
      e ≠ .timeline .noFrames ∧ e ≠ .noWorkers := by
    obtain ⟨cause, -, rfl⟩ := mapError_eq_error.mp faulty
    exact ⟨nofun, nofun⟩
  rcases bind_eq_error.mp failed with uncounted | ⟨count, counted, failed⟩
  · exact number uncounted
  · have positive : ¬count ≤ 0 := by
      have one := checked.one_le_frameCount (mapError_eq_ok.mp counted)
      omega
    have somebody : settings.frames.workers.any (·.isZeroOrLess) = false := by
      obtain ⟨workers, given, above⟩ := checked.workers
      rw [given]
      apply decide_eq_false
      omega
    by_cases tooMany : (Frame.mostFrames : Int) ≤ count
    · rw [if_pos tooMany] at failed
      cases failed
      exact ⟨nofun, nofun⟩
    · rw [if_neg tooMany, if_neg positive] at failed
      dsimp only at failed
      rw [somebody, Bool.and_false, if_neg Bool.false_ne_true] at failed
      obtain ⟨instant, -, undrawn⟩ := exists_of_mapM_error failed
      rcases bind_eq_error.mp undrawn with faulty | ⟨data, -, impossible⟩
      · exact number faulty
      · cases impossible

theorem compile_error (checked : settings.Checked) {document : Text} {e : Frame.CompileError}
    (failed : Frame.compile settings.frames document = .error e) : e ≠ .timeline .noFrames ∧ e ≠ .noWorkers := by
  unfold Frame.compile at failed
  split at failed
  · cases failed
  · cases failed
  · rcases bind_eq_error.mp failed with unread | ⟨animations, -, failed⟩
    · obtain ⟨cause, -, rfl⟩ := mapError_eq_error.mp unread
      exact ⟨nofun, nofun⟩
    · split at failed
      · cases failed
      · exact checked.animate_error failed

end Settings.Checked

end Flipbook
