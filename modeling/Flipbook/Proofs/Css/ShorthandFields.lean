import Flipbook.Css.Shorthand
import Flipbook.Proofs.Css.PlainDecimal
import Flipbook.Proofs.Css.TokenText

namespace Flipbook.Css

open Text

def IsTime (t : Text) : Prop :=
  ∃ number amount unit, PlainText number amount ∧ (unit = ['s'] ∨ unit = ['m', 's']) ∧ t = number ++ unit

def IsTiming (t : Text) : Prop := isOneOf timingKeywords t ∨ "cubic-bezier(".toList <+: t

def IsIterations (t : Text) : Prop := t = "infinite".toList ∨ t ≠ [] ∧ ∀ c ∈ t, isDigitLike c

/-- What a token of a kind looks like. A name looks like none of the others. -/
def HasShape : TokenKind → Text → Prop
  | .time, t => IsTime t
  | .timing, t => IsTiming t
  | .iterations, t => IsIterations t
  | .direction, t => isOneOf directionKeywords t
  | .fill, t => isOneOf fillKeywords t
  | .playState, t => isOneOf playStateKeywords t
  | .name, t => ¬IsTime t ∧ ¬IsTiming t ∧ ¬IsIterations t ∧ ¬isOneOf directionKeywords t ∧ ¬isOneOf fillKeywords t ∧
      ¬isOneOf playStateKeywords t

theorem isSome_time {t : Text} : (Time.ofText? t).isSome ↔ IsTime t := by
  unfold Time.ofText?
  constructor
  · intro read
    cases taken : takePlain? t with
    | none =>
      rw [taken] at read
      cases read
    | some found =>
      obtain ⟨amount, rest⟩ := found
      obtain ⟨number, cut, text⟩ := takePlain?_sound taken
      refine ⟨number, amount, rest, text, ?_, cut⟩
      simp only [taken, Option.bind_eq_bind, Option.bind_some] at read
      split at read
      · rename_i same
        cases same
        exact .inl rfl
      · rename_i same
        cases same
        exact .inr rfl
      · cases read
  · rintro ⟨number, amount, unit, text, rfl | rfl, rfl⟩
    · rw [takePlain?_complete text (halts_cons.mpr (by decide)) (halts_cons.mpr (by decide))]
      rfl
    · rw [takePlain?_complete text (halts_cons.mpr (by decide)) (halts_cons.mpr (by decide))]
      rfl

theorem isTiming_iff {t : Text} :
    (isOneOf timingKeywords t || (after? "cubic-bezier(".toList t).isSome) = true ↔ IsTiming t := by
  rw [Bool.or_eq_true, Option.isSome_iff_ne_none, Ne, after?_eq_none, not_not]
  rfl

theorem isIterations_iff {t : Text} :
    (decide (t = "infinite".toList) || (!t.isEmpty && t.all isDigitLike)) = true ↔ IsIterations t := by
  rw [Bool.or_eq_true, decide_eq_true_eq, Bool.and_eq_true, List.all_eq_true, Bool.not_eq_true',
    List.isEmpty_eq_false_iff]
  rfl

theorem hasShape_tokenKind (t : Text) : HasShape (tokenKind t) t := by
  unfold tokenKind
  split
  · rename_i time
    exact isSome_time.mp time
  rename_i noTime
  split
  · rename_i timing
    exact isTiming_iff.mp timing
  rename_i noTiming
  split
  · rename_i iterations
    exact isIterations_iff.mp iterations
  rename_i noIterations
  split
  · assumption
  rename_i noDirection
  split
  · assumption
  rename_i noFill
  split
  · assumption
  rename_i noPlayState
  exact ⟨fun time => noTime (isSome_time.mpr time), fun timing => noTiming (isTiming_iff.mpr timing),
    fun iterations => noIterations (isIterations_iff.mpr iterations), noDirection, noFill, noPlayState⟩

theorem exists_of_isOneOf {words : List String} {t : Text} (known : isOneOf words t) : ∃ word ∈ words, t = word.toList := by
  obtain ⟨word, member, same⟩ := List.any_eq_true.mp known
  exact ⟨word, member, (of_decide_eq_true same).symm⟩

theorem tokenKind_of_isOneOf {words : List String} {kind : TokenKind} (all : ∀ word ∈ words, tokenKind word.toList = kind)
    {t : Text} (known : isOneOf words t) : tokenKind t = kind := by
  obtain ⟨word, member, rfl⟩ := exists_of_isOneOf known
  exact all word member

theorem tokenKind_of_curve {t : Text} (curve : "cubic-bezier(".toList <+: t) : tokenKind t = .timing := by
  obtain ⟨rest, rfl⟩ := curve
  have noTime : ¬(Time.ofText? ("cubic-bezier(".toList ++ rest)).isSome := fun read => by cases read
  have known : (after? "cubic-bezier(".toList ("cubic-bezier(".toList ++ rest)).isSome := by
    rw [after?_append]
    rfl
  rw [tokenKind, if_neg noTime, if_pos (by rw [known, Bool.or_true])]

theorem not_isTime_of_digits {t : Text} (digits : ∀ c ∈ t, isDigitLike c) : ¬IsTime t := by
  rintro ⟨number, amount, unit, -, rfl | rfl, rfl⟩
  · exact absurd (digits 's' (by simp)) (by decide +kernel)
  · exact absurd (digits 's' (by simp)) (by decide +kernel)

theorem not_isTiming_of_digits {t : Text} (digits : ∀ c ∈ t, isDigitLike c) : ¬IsTiming t := by
  rintro (keyword | ⟨rest, rfl⟩)
  · obtain ⟨word, member, rfl⟩ := exists_of_isOneOf keyword
    have letters : timingKeywords.all fun word => word.toList.any (!isDigitLike ·) := by decide +kernel
    obtain ⟨c, inside, letter⟩ := List.any_eq_true.mp (List.all_eq_true.mp letters word member)
    rw [digits c inside] at letter
    cases letter
  · exact absurd (digits 'c' (by simp)) (by decide +kernel)

theorem tokenKind_of_digits {t : Text} (some : t ≠ []) (digits : ∀ c ∈ t, isDigitLike c) : tokenKind t = .iterations := by
  rw [tokenKind, if_neg (mt isSome_time.mp (not_isTime_of_digits digits)),
    if_neg (mt isTiming_iff.mp (not_isTiming_of_digits digits)), if_pos (isIterations_iff.mpr (.inr ⟨some, digits⟩))]

/-- The tests exclude one another, so their order does not count. -/
theorem tokenKind_eq_iff {t : Text} {kind : TokenKind} : tokenKind t = kind ↔ HasShape kind t := by
  constructor
  · rintro rfl
    exact hasShape_tokenKind t
  · intro shape
    cases kind with
    | time => exact if_pos (isSome_time.mpr shape)
    | timing =>
      rcases shape with keyword | curve
      · exact tokenKind_of_isOneOf (by decide +kernel) keyword
      · exact tokenKind_of_curve curve
    | iterations =>
      rcases shape with rfl | ⟨some, digits⟩
      · decide +kernel
      · exact tokenKind_of_digits some digits
    | direction => exact tokenKind_of_isOneOf (by decide +kernel) shape
    | fill => exact tokenKind_of_isOneOf (by decide +kernel) shape
    | playState => exact tokenKind_of_isOneOf (by decide +kernel) shape
    | name =>
      obtain ⟨noTime, noTiming, noIterations, noDirection, noFill, noPlayState⟩ := shape
      rw [tokenKind, if_neg (mt isSome_time.mp noTime), if_neg (mt isTiming_iff.mp noTiming),
        if_neg (mt isIterations_iff.mp noIterations), if_neg noDirection, if_neg noFill, if_neg noPlayState]

def ofKind (kind : TokenKind) (ts : List Text) : List Text := ts.filter (tokenKind · = kind)

theorem ofKind_concat (kind : TokenKind) (ts : List Text) (t : Text) :
    ofKind kind (ts ++ [t]) = ofKind kind ts ++ if tokenKind t = kind then [t] else [] := by
  unfold ofKind
  rw [List.filter_append, List.filter_singleton]
  by_cases same : tokenKind t = kind <;> simp [same]

/-- The fields that tokens give. The first time is the duration and the last of the others the delay; each other field
    is the last token of its kind. -/
def fieldsOf (ts : List Text) : AnimationFields where
  name := (ofKind .name ts).getLast?
  duration := (ofKind .time ts).head?.map duration
  delay := (ofKind .time ts).tail.getLast?.map duration
  timing := (ofKind .timing ts).getLast?
  iterations := (ofKind .iterations ts).getLast?
  direction := (ofKind .direction ts).getLast?
  fill := (ofKind .fill ts).getLast?

theorem fieldsOf_concat (ts : List Text) (t : Text) : fieldsOf (ts ++ [t]) = (fieldsOf ts).add t := by
  unfold fieldsOf AnimationFields.add
  simp only [ofKind_concat]
  cases kind : tokenKind t with
  | time => cases times : ofKind .time ts <;> simp
  | timing | iterations | direction | fill | playState | name => simp

theorem foldl_add (ts : List Text) : ts.foldl AnimationFields.add {} = fieldsOf ts := by
  induction ts using List.reverseRecOn with
  | nil => rfl
  | append_singleton ts t ih => rw [List.foldl_append, ih, fieldsOf_concat, List.foldl_cons, List.foldl_nil]

theorem shorthand_joinWith {ts : List Text} (isToken : ∀ t ∈ ts, IsToken t) :
    shorthand (joinWith [' '] ts) = fieldsOf ts := by
  cases ts with
  | nil => rfl
  | cons t ts =>
    rw [shorthand, layers_joinWith isToken (List.cons_ne_nil t ts)]
    simp only [tokens_joinWith isToken, foldl_add]

/-- The same tokens in another order, which is the same within each kind but the play states. -/
structure Rearranged (ts ts' : List Text) : Prop where
  perm : ts.Perm ts'
  ordered : ∀ kind ≠ .playState, ofKind kind ts = ofKind kind ts'

/-- Fields are given exactly where tokens of their kinds are, and the delay where there are two times. -/
structure GivenBy (ts : List Text) (fields : AnimationFields) : Prop where
  name : fields.name.isSome ↔ ∃ t ∈ ts, HasShape .name t
  duration : fields.duration.isSome ↔ ∃ t ∈ ts, HasShape .time t
  delay : fields.delay.isSome ↔ 2 ≤ (ofKind .time ts).length
  timing : fields.timing.isSome ↔ ∃ t ∈ ts, HasShape .timing t
  iterations : fields.iterations.isSome ↔ ∃ t ∈ ts, HasShape .iterations t
  direction : fields.direction.isSome ↔ ∃ t ∈ ts, HasShape .direction t
  fill : fields.fill.isSome ↔ ∃ t ∈ ts, HasShape .fill t

theorem ofKind_ne_nil {kind : TokenKind} {ts : List Text} : ofKind kind ts ≠ [] ↔ ∃ t ∈ ts, HasShape kind t := by
  unfold ofKind
  rw [Ne, List.filter_eq_nil_iff]
  simp only [decide_eq_true_eq, tokenKind_eq_iff, not_forall, not_not, exists_prop]

theorem isSome_last {kind : TokenKind} {ts : List Text} :
    (ofKind kind ts).getLast?.isSome ↔ ∃ t ∈ ts, HasShape kind t := by
  rw [List.getLast?_isSome, ofKind_ne_nil]

theorem givenBy_fieldsOf (ts : List Text) : GivenBy ts (fieldsOf ts) where
  name := isSome_last
  duration := by
    rw [fieldsOf, Option.isSome_map, List.isSome_head?, ofKind_ne_nil]
  delay := by
    rw [fieldsOf, Option.isSome_map, List.getLast?_isSome]
    cases ofKind .time ts with
    | nil => simp
    | cons first others =>
      rw [List.tail_cons, ← List.length_pos_iff]
      exact Nat.succ_le_succ_iff.symm
  timing := isSome_last
  iterations := isSome_last
  direction := isSome_last
  fill := isSome_last

theorem Rearranged.fieldsOf_eq {ts ts' : List Text} (rearranged : Rearranged ts ts') : fieldsOf ts = fieldsOf ts' := by
  unfold fieldsOf
  rw [rearranged.ordered .name (by decide), rearranged.ordered .time (by decide),
    rearranged.ordered .timing (by decide), rearranged.ordered .iterations (by decide),
    rearranged.ordered .direction (by decide), rearranged.ordered .fill (by decide)]

/-- A shorthand is read by the shapes of its tokens. Where they stand counts only within a kind, where it says which
    token a field holds. -/
theorem shorthand_rearranged {ts ts' : List Text} (isToken : ∀ t ∈ ts, IsToken t) (rearranged : Rearranged ts ts') :
    shorthand (joinWith [' '] ts) = shorthand (joinWith [' '] ts') ∧ shorthand (joinWith [' '] ts) = fieldsOf ts ∧
      GivenBy ts (shorthand (joinWith [' '] ts)) ∧ ∀ kind t, tokenKind t = kind ↔ HasShape kind t := by
  have isToken' : ∀ t ∈ ts', IsToken t := fun t member => isToken t (rearranged.perm.mem_iff.mpr member)
  rw [shorthand_joinWith isToken, shorthand_joinWith isToken']
  exact ⟨rearranged.fieldsOf_eq, rfl, givenBy_fieldsOf ts, fun _ _ => tokenKind_eq_iff⟩

theorem shorthand_rearranged_wobble :
    let ts := ["wobble".toList, "1s".toList, "cubic-bezier(0.1, 0.7)".toList, "paused".toList, "2s".toList, "3".toList]
    let ts' := ["paused".toList, "1s".toList, "3".toList, "2s".toList, "cubic-bezier(0.1, 0.7)".toList, "wobble".toList]
    (∀ t ∈ ts, IsToken t) ∧ Rearranged ts ts' ∧
      shorthand "wobble 1s cubic-bezier(0.1, 0.7) paused 2s 3".toList =
        shorthand "paused 1s 3 2s cubic-bezier(0.1, 0.7) wobble".toList := by
  intro ts ts'
  have isToken : ∀ t ∈ ts, IsToken t := by decide +kernel
  have ordered : ∀ kind ≠ .playState, ofKind kind ts = ofKind kind ts' := by
    intro kind _
    cases kind <;> decide +kernel
  have rearranged : Rearranged ts ts' := ⟨by decide +kernel, ordered⟩
  exact ⟨isToken, rearranged, (shorthand_rearranged isToken rearranged).1⟩

end Flipbook.Css
