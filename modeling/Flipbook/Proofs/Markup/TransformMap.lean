import Flipbook.Proofs.Markup.TransformList
import Flipbook.Proofs.Outcome

namespace Flipbook.Markup

open Text Binary64

namespace TransformFunction

/-- The factor of a scale along the axis alone. -/
def axisFactor? : TransformFunction → Axis → Option Int
  | scaleAlong axis n, other => if axis = other then some n else none
  | translate .., _ | translateAlong .., _ | scale .., _ => none

def axisFactors (axis : Axis) (fs : List TransformFunction) : List Int := fs.filterMap (·.axisFactor? axis)

def isAxisScale : TransformFunction → Bool
  | scaleAlong .. => true
  | translate .. | translateAlong .. | scale .. => false

def inPlace (fs : List TransformFunction) : List TransformFunction := fs.filter (!·.isAxisScale)

def placed? : TransformFunction → Option TransformFunction
  | translate x y => some (translate x (some (y.getD 0)))
  | translateAlong .x n => some (translate n (some 0))
  | translateAlong .y n => some (translate 0 (some n))
  | scale x y => some (scale x y)
  | scaleAlong .. => none

def lastFactor? (fs : List TransformFunction) (axis : Axis) : Option Int := (axisFactors axis fs).getLast?

def trailing (fs : List TransformFunction) : List TransformFunction :=
  if (lastFactor? fs .x).isNone && (lastFactor? fs .y).isNone then []
  else [scale ((lastFactor? fs .x).getD 1) (some ((lastFactor? fs .y).getD 1))]

def gathered (fs : List TransformFunction) : List TransformFunction := fs.filterMap placed? ++ trailing fs

end TransformFunction

open TransformFunction

variable {f : TransformFunction} {fs gs : List TransformFunction} {t list : Text} {call : Call}

def partOf : TransformFunction → TransformPart
  | .scaleAlong .x n => .scaleX (Text.ofInt n)
  | .scaleAlong .y n => .scaleY (Text.ofInt n)
  | f => .placed (((placed? f).map (functionText Text.ofInt)).getD [])

theorem number_eq {n : Int} (written : LengthText n t) (short : n.natAbs ≤ 2 ^ 53) :
    ((leadingNumber? t).map sheetText).getD ['0'] = Text.ofInt n := by
  obtain ⟨negative, size, lexeme, rest, read, rfl⟩ := written.read?
  have solid : trimStart t = t :=
    dropWhile_of_halts fun c first => written.isEntry.solid c (List.mem_of_mem_head? first)
  rw [natAbs_signed] at short
  unfold leadingNumber?
  rw [solid, read]
  exact sheetText_of_integer short negative

theorem numberTexts_eq {ns : List Int} (written : NumbersText LengthText ns t) (short : ∀ n ∈ ns, n.natAbs ≤ 2 ^ 53) :
    numberTexts t = ns.map Text.ofInt := by
  have entry := written.entries_eq
  unfold numberTexts
  generalize entries t = texts at entry
  clear written
  induction entry with
  | nil => rfl
  | cons first _ ih =>
    rw [List.map_cons, List.map_cons, number_eq first (short _ List.mem_cons_self),
      ih fun n member => short n (List.mem_cons_of_mem _ member)]

theorem transformPart_eq (written : CallText LengthText f call) (short : ∀ n ∈ f.numbers, n.natAbs ≤ 2 ^ 53) :
    transformPart call = .ok (partOf f) := by
  have numbers := numberTexts_eq written.numbers_eq short
  unfold transformPart numberText
  rw [written.1, ofName_name, numbers]
  cases f with
  | translate x y => cases y <;> rfl
  | scale x y => cases y <;> rfl
  | translateAlong axis n | scaleAlong axis n => cases axis <;> rfl

theorem mapM_transformPart {calls : List Call} (written : List.Forall₂ (CallText LengthText) fs calls)
    (short : ∀ f ∈ fs, ∀ n ∈ f.numbers, n.natAbs ≤ 2 ^ 53) : calls.mapM transformPart = .ok (fs.map partOf) := by
  induction written with
  | nil => rfl
  | cons first _ ih =>
    rw [List.mapM_cons, transformPart_eq first (short _ List.mem_cons_self),
      ih fun f member => short f (List.mem_cons_of_mem _ member)]
    rfl

theorem filterMap_parts {α : Type} {fromPart : TransformPart → Option Text} {taken : TransformFunction → Option α}
    {write : α → Text} (agree : ∀ f, fromPart (partOf f) = (taken f).map write) :
    (fs.map partOf).filterMap fromPart = (fs.filterMap taken).map write := by
  rw [List.filterMap_map, List.map_filterMap]
  congr 1
  funext f
  exact agree f

theorem last_parts {fromPart : TransformPart → Option Text} {axis : Axis}
    (agree : ∀ f, fromPart (partOf f) = (f.axisFactor? axis).map Text.ofInt) :
    ((fs.map partOf).filterMap fromPart).getLast? = (lastFactor? fs axis).map Text.ofInt := by
  rw [filterMap_parts agree, List.getLast?_map]
  rfl

theorem axisScale?_parts : (axisScale? (fs.map partOf)).toList = (trailing fs).map (functionText Text.ofInt) := by
  unfold axisScale? trailing
  extract_lets last x y
  have lastX : x = (lastFactor? fs .x).map Text.ofInt := last_parts fun f => by
    rcases f with _ | ⟨_ | _, _⟩ | _ | ⟨_ | _, _⟩ <;> rfl
  have lastY : y = (lastFactor? fs .y).map Text.ofInt := last_parts fun f => by
    rcases f with _ | ⟨_ | _, _⟩ | _ | ⟨_ | _, _⟩ <;> rfl
  rw [lastX, lastY]
  cases lastFactor? fs .x <;> cases lastFactor? fs .y <;> rfl

theorem transformText_eq (written : CssList fs list) (short : ∀ f ∈ fs, ∀ n ∈ f.numbers, n.natAbs ≤ 2 ^ 53) :
    transformText list = .ok (joinWith [' '] ((gathered fs).map (functionText Text.ofInt))) := by
  unfold transformText gathered
  rw [mapM_transformPart written.findAll short, ok_bind, List.map_append, ← axisScale?_parts]
  extract_lets placed
  have inPlace : placed = (fs.filterMap placed?).map (functionText Text.ofInt) := filterMap_parts fun f => by
    rcases f with _ | ⟨_ | _, _⟩ | _ | ⟨_ | _, _⟩ <;> rfl
  rw [inPlace]
  rfl

theorem planar_of_mem_gathered (member : f ∈ gathered fs) : f.isPlanar := by
  rcases List.mem_append.mp member with member | member
  · obtain ⟨g, -, placed⟩ := List.mem_filterMap.mp member
    rcases g with _ | ⟨_ | _, _⟩ | _ | _ <;> cases placed <;> rfl
  · unfold trailing at member
    split at member
    · cases member
    · rw [List.mem_singleton.mp member]
      rfl

def scaled (factors : Axis → Int) (p : Plane) : Plane := fun axis => factors axis * p axis

theorem map_of_placed? {g : TransformFunction} (placed : placed? f = some g) : g.map = f.map := by
  funext p axis
  rcases f with ⟨x, y⟩ | ⟨_ | _, _⟩ | ⟨x, y⟩ | _ <;> cases placed <;> cases axis <;> simp [map, factor, offset]

theorem isAxisScale_iff : f.isAxisScale ↔ placed? f = none := by
  rcases f with _ | ⟨_ | _, _⟩ | _ | _ <;> simp [isAxisScale, placed?]

theorem inPlace_cons_of_isAxisScale (single : f.isAxisScale) : inPlace (f :: fs) = inPlace fs := by
  unfold inPlace
  rw [List.filter_cons_of_neg (by rw [single]; decide)]

theorem inPlace_cons (kept : f.isAxisScale = false) : inPlace (f :: fs) = f :: inPlace fs := by
  unfold inPlace
  rw [List.filter_cons, kept]
  rfl

theorem mapAll_placed (p : Plane) : mapAll (fs.filterMap placed?) p = mapAll (inPlace fs) p := by
  induction fs with
  | nil => rfl
  | cons f fs ih =>
    cases placed : placed? f with
    | none => rw [List.filterMap_cons_none placed, inPlace_cons_of_isAxisScale (isAxisScale_iff.mpr placed), ih]
    | some g =>
      have kept : f.isAxisScale = false := by simp [← Bool.not_eq_true, isAxisScale_iff, placed]
      rw [List.filterMap_cons_some placed, inPlace_cons kept]
      show g.map (mapAll _ p) = f.map (mapAll _ p)
      rw [ih, map_of_placed? placed]

theorem mapAll_trailing (p : Plane) :
    mapAll (trailing fs) p = scaled (fun axis => (lastFactor? fs axis).getD 1) p := by
  funext axis
  unfold trailing scaled
  split
  · rename_i none
    rw [Bool.and_eq_true, Option.isNone_iff_eq_none, Option.isNone_iff_eq_none] at none
    cases axis <;> simp [mapAll, none]
  · cases axis <;> simp [mapAll, map, factor, offset]

theorem mapAll_gathered (p : Plane) : mapAll (gathered fs) p =
    mapAll (inPlace fs) (scaled (fun axis => (lastFactor? fs axis).getD 1) p) := by
  rw [← mapAll_trailing, ← mapAll_placed]
  exact List.foldr_append

theorem mapAll_mul {axis : Axis} {p q : Plane} {n : ℚ} (unmoved : ∀ f ∈ fs, f.offset axis = 0)
    (same : q axis = n * p axis) : mapAll fs q axis = n * mapAll fs p axis := by
  induction fs with
  | nil => exact same
  | cons f fs ih =>
    have here := unmoved f List.mem_cons_self
    have others := ih fun g member => unmoved g (List.mem_cons_of_mem _ member)
    show f.factor axis * mapAll fs q axis + f.offset axis = n * (f.factor axis * mapAll fs p axis + f.offset axis)
    rw [here, others, Int.cast_zero, add_zero, add_zero, mul_left_comm]

def ScaledLast (axis : Axis) (fs : List TransformFunction) : Prop :=
  fs.Pairwise fun f g => (f.axisFactor? axis).isSome → g.offset axis = 0

instance (axis : Axis) (fs : List TransformFunction) : Decidable (ScaledLast axis fs) :=
  inferInstanceAs (Decidable (List.Pairwise _ _))

theorem map_of_isAxisScale (single : f.isAxisScale) (p : Plane) (axis : Axis) :
    f.map p axis = (f.axisFactor? axis).getD 1 * p axis := by
  cases f with
  | translate | translateAlong | scale => cases single
  | scaleAlong other n => by_cases same : other = axis <;> simp [map, factor, offset, axisFactor?, same]

theorem axisFactors_cons_none {axis : Axis} (none : f.axisFactor? axis = none) :
    axisFactors axis (f :: fs) = axisFactors axis fs := List.filterMap_cons_none none

theorem axisFactors_cons_some {axis : Axis} {n : Int} (factor : f.axisFactor? axis = some n) :
    axisFactors axis (f :: fs) = n :: axisFactors axis fs := List.filterMap_cons_some factor

theorem mapAll_scaledLast {axis : Axis} {p q : Plane} (last : ScaledLast axis fs)
    (pending : q axis = (axisFactors axis fs).prod * p axis) : mapAll fs p axis = mapAll (inPlace fs) q axis := by
  induction fs generalizing q with
  | nil => simpa [axisFactors, mapAll, inPlace] using pending.symm
  | cons f fs ih =>
    obtain ⟨here, others⟩ := List.pairwise_cons.mp last
    show f.map (mapAll fs p) axis = _
    cases single : f.isAxisScale with
    | true =>
      rw [map_of_isAxisScale single, inPlace_cons_of_isAxisScale single]
      cases factor : f.axisFactor? axis with
      | none =>
        rw [axisFactors_cons_none factor] at pending
        rw [ih others pending, Option.getD_none, Int.cast_one, one_mul]
      | some n =>
        rw [axisFactors_cons_some factor, List.prod_cons, Int.cast_mul, mul_assoc] at pending
        have rest : mapAll fs p axis = mapAll (inPlace fs) (fun _ => (axisFactors axis fs).prod * p axis) axis :=
          ih others rfl
        have unmoved : ∀ g ∈ inPlace fs, g.offset axis = 0 := fun g member =>
          here g (List.mem_filter.mp member).1 (by rw [factor]; rfl)
        rw [rest, Option.getD_some]
        exact (mapAll_mul unmoved pending).symm
    | false =>
      have none : f.axisFactor? axis = none := by
        cases f with
        | translate | translateAlong | scale => rfl
        | scaleAlong => cases single
      rw [axisFactors_cons_none none] at pending
      rw [inPlace_cons single]
      show _ = f.factor axis * mapAll (inPlace fs) q axis + f.offset axis
      rw [← ih others pending]
      rfl

/-- The text is a list of the attribute, and the functions of that list compose to the map. -/
def SvgDenotes (t : Text) (m : Plane → Plane) : Prop := (∃ gs, SvgList gs t) ∧ ∀ gs, SvgList gs t → mapAll gs = m

theorem svgDenotes (written : SvgList gs t) : SvgDenotes t (mapAll gs) := by
  refine ⟨⟨gs, written⟩, fun others written' => ?_⟩
  rw [written'.cssList.unique written.cssList]

/-- The attribute has the functions of the list in their order but for the scales of single axes, which become one
    scale at its end; and so it denotes the map of the list if each axis has at most one and does not move later. -/
theorem transformText_map (written : CssList fs list) (short : ∀ f ∈ fs, ∀ n ∈ f.numbers, n.natAbs ≤ 2 ^ 53) :
    ∃ out factors, transformText list = .ok out ∧
      SvgDenotes out (fun p => mapAll (inPlace fs) (scaled factors p)) ∧
      (∀ axis, (axisFactors axis fs).length ≤ 1 → factors axis = (axisFactors axis fs).prod) ∧
      ((∀ axis, (axisFactors axis fs).length ≤ 1 ∧ ScaledLast axis fs) → SvgDenotes out (mapAll fs)) := by
  have planar : ∀ f ∈ gathered fs, f.isPlanar := fun f => planar_of_mem_gathered
  have denotes := svgDenotes (svgList_joinWith planar)
  have only (axis : Axis) (atMost : (axisFactors axis fs).length ≤ 1) :
      (lastFactor? fs axis).getD 1 = (axisFactors axis fs).prod := by
    unfold lastFactor?
    match axisFactors axis fs, atMost with
    | [], _ => rfl
    | [n], _ => simp
  have same : mapAll (gathered fs) =
      fun p => mapAll (inPlace fs) (scaled (fun axis => (lastFactor? fs axis).getD 1) p) := funext mapAll_gathered
  refine ⟨_, _, transformText_eq written short, same ▸ denotes, only, fun inOrder => ?_⟩
  have kept : mapAll fs = mapAll (gathered fs) := by
    funext p axis
    obtain ⟨atMost, last⟩ := inOrder axis
    rw [mapAll_gathered]
    apply mapAll_scaledLast last
    rw [← only axis atMost]
    rfl
  rw [kept]
  exact denotes

theorem transformText_map_scaleX_last :
    CssList [.scale 3 none, .translateAlong .x 10, .scaleAlong .x 2] "scale(3) translateX(10px) scaleX(2)".toList ∧
      ∃ out, transformText "scale(3) translateX(10px) scaleX(2)".toList = .ok out ∧
        SvgDenotes out (mapAll [.scale 3 none, .translateAlong .x 10, .scaleAlong .x 2]) := by
  have written : CssList [.scale 3 none, .translateAlong .x 10, .scaleAlong .x 2]
      "scale(3) translateX(10px) scaleX(2)".toList := cssList_joinWith _
  obtain ⟨out, -, computed, -, -, denotes⟩ := transformText_map written (by decide)
  refine ⟨written, out, computed, denotes fun axis => ?_⟩
  cases axis <;> decide

theorem transformText_map_scaleX_first :
    ∃ fs, CssList fs "scaleX(2) translateX(10px)".toList ∧ (∀ f ∈ fs, ∀ n ∈ f.numbers, n.natAbs < 10 ^ 6) ∧
      ¬∃ out, transformText "scaleX(2) translateX(10px)".toList = .ok out ∧ SvgDenotes out (mapAll fs) := by
  have written : CssList [.scaleAlong .x 2, .translateAlong .x 10] "scaleX(2) translateX(10px)".toList :=
    cssList_joinWith _
  refine ⟨_, written, by decide, ?_⟩
  rintro ⟨out, computed, denotes⟩
  cases (transformText_eq written (by decide)).symm.trans computed
  have same := denotes.2 _ (svgList_joinWith fun f member => planar_of_mem_gathered member)
  have moved : mapAll (gathered [.scaleAlong .x 2, .translateAlong .x 10]) 0 .x = 10 := by decide +kernel
  rw [same] at moved
  revert moved
  decide +kernel

end Flipbook.Markup
