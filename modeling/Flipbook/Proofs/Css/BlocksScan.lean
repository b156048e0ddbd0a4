import Flipbook.Proofs.Css.KeyframesScan
import Flipbook.Proofs.Css.Offsets
import Flipbook.Proofs.Css.StopOrder
import Flipbook.Proofs.Css.Totality

namespace Flipbook.Css

open Text Binary64

section Flat

variable {isHead : Char → Bool}

theorem blocksFrom_head {head : Text} (inside : ∀ c ∈ head, isHead c) (flat : ∀ c ∈ head, c ≠ '{' ∧ c ≠ '}')
    (pending rest : Text) :
    blocksFrom isHead pending none (head ++ rest) = blocksFrom isHead (pending ++ head) none rest := by
  induction head generalizing pending with
  | nil => rw [List.append_nil, List.nil_append]
  | cons c head ih =>
    obtain ⟨noOpen, noClose⟩ := flat c (by simp)
    have others := ih (fun d member => inside d (List.mem_cons_of_mem _ member))
      (fun d member => flat d (List.mem_cons_of_mem _ member)) (pending ++ [c])
    rw [List.cons_append, blocksFrom, if_neg noOpen, if_neg noClose, if_pos (inside c (by simp)), Option.map_none,
      others, List.append_assoc, List.singleton_append]

theorem blocksFrom_body {body : Text} (flat : ∀ c ∈ body, c ≠ '{' ∧ c ≠ '}') (pending : Text) (block : Block)
    (rest : Text) :
    blocksFrom isHead pending (some block) (body ++ '}' :: rest) =
      ⟨block.head, block.body ++ body⟩ :: blocksFrom isHead [] none rest := by
  induction body generalizing pending block with
  | nil =>
    rw [List.nil_append, List.append_nil, blocksFrom, if_neg (by decide), if_pos rfl]
  | cons c body ih =>
    obtain ⟨noOpen, noClose⟩ := flat c (by simp)
    rw [List.cons_append, blocksFrom, if_neg noOpen, if_neg noClose, Option.map_some,
      ih (fun d member => flat d (List.mem_cons_of_mem _ member)), List.append_assoc, List.singleton_append]

theorem blocksFrom_blockText {gap head body : Text} (nonempty : head ≠ []) (inside : ∀ c ∈ head ++ gap, isHead c)
    (flat : ∀ c ∈ head ++ gap, c ≠ '{' ∧ c ≠ '}') (flatBody : ∀ c ∈ body, c ≠ '{' ∧ c ≠ '}') (pending rest : Text) :
    blocksFrom isHead pending none (blockText gap head body ++ rest) =
      ⟨pending ++ head ++ gap, body⟩ :: blocksFrom isHead gap none rest := by
  have shape : blockText gap head body ++ rest = (head ++ gap) ++ '{' :: (body ++ '}' :: (gap ++ rest)) := by
    simp [blockText]
  have filled : (pending ++ (head ++ gap)).isEmpty = false := by simp [nonempty]
  have after := blocksFrom_head (fun c member => inside c (List.mem_append_right _ member))
    (fun c member => flat c (List.mem_append_right _ member)) [] rest
  rw [shape, blocksFrom_head inside flat, blocksFrom, if_pos rfl, filled, if_neg Bool.false_ne_true,
    blocksFrom_body flatBody, after, List.append_assoc]
  rfl

end Flat

section Printed

variable {gap : Text}

def expanded (stops : List StopText) : List Stop :=
  stops.flatMap fun stop => stop.offsets.map fun offset => ⟨offset.value, declared stop.declarations⟩

theorem isStopHead_of_isBlank {c : Char} (blank : isBlank c) : isStopHead c := by
  unfold isStopHead
  rw [blank, Bool.or_true]

theorem isStopHead_of_mem_offsetsText (blank : ∀ c ∈ gap, isBlank c) {offsets : List OffsetWord}
    (valid : ∀ offset ∈ offsets, offset.Valid) {c : Char} (member : c ∈ offsetsText gap offsets) : isStopHead c := by
  rcases mem_joinWith member with ⟨part, inside, stands⟩ | between
  · obtain ⟨offset, isOffset, rfl⟩ := List.mem_map.mp inside
    rcases OffsetWord.mem_text (valid offset isOffset) stands with digit | letter
    · unfold isStopHead
      rw [isWord_of_isDigit digit]
      rfl
    · simp only [List.mem_cons, List.not_mem_nil, or_false] at letter
      rcases letter with rfl | rfl | rfl | rfl | rfl | rfl | rfl <;> decide
  · rcases List.mem_cons.mp between with rfl | inGap
    · decide
    · exact isStopHead_of_isBlank (blank c inGap)

theorem offsetsText_ne_nil {offsets : List OffsetWord} (nonempty : offsets ≠ []) : offsetsText gap offsets ≠ [] := by
  have written (offset : OffsetWord) : offset.text ≠ [] := by
    cases offset with
    | start => decide
    | finish => decide
    | percent whole fraction => cases fraction <;> simp [OffsetWord.text]
  exact joinWith_ne_nil (mt List.map_eq_nil_iff.mp nonempty) (List.forall_mem_map.mpr fun offset _ => written offset)

theorem blocksFrom_stops (blank : ∀ c ∈ gap, isBlank c) {stops : List StopText} (valid : ∀ stop ∈ stops, stop.Valid) :
    blocksFrom isStopHead gap none (stops.flatMap (StopText.text gap)) =
      stops.map fun stop => ⟨gap ++ offsetsText gap stop.offsets ++ gap, declarationsText gap stop.declarations⟩ := by
  induction stops with
  | nil => rfl
  | cons stop stops ih =>
    obtain ⟨first, later⟩ := List.forall_mem_cons.mp valid
    have others := ih later
    have inside : ∀ c ∈ offsetsText gap stop.offsets ++ gap, isStopHead c :=
      List.forall_mem_append.mpr ⟨fun c member => isStopHead_of_mem_offsetsText blank first.offsets member,
        fun c member => isStopHead_of_isBlank (blank c member)⟩
    have flat : ∀ c ∈ offsetsText gap stop.offsets ++ gap, c ≠ '{' ∧ c ≠ '}' :=
      List.forall_mem_append.mpr ⟨flat_offsetsText blank first.offsets, flat_of_isBlank blank⟩
    rw [List.flatMap_cons, StopText.text, blocksFrom_blockText (offsetsText_ne_nil first.nonempty) inside flat
      (flat_declarationsText blank first.declarations), others, List.map_cons]

theorem stops_stopsText (blank : ∀ c ∈ gap, isBlank c) {printed : List StopText}
    (valid : ∀ stop ∈ printed, stop.Valid) : stops (stopsText gap printed) = sortStops (expanded printed) := by
  have scanned : blocks isStopHead (stopsText gap printed) =
      printed.map fun stop => ⟨gap ++ offsetsText gap stop.offsets ++ gap, declarationsText gap stop.declarations⟩ := by
    have head := blocksFrom_head (fun c member => isStopHead_of_isBlank (blank c member)) (flat_of_isBlank blank) []
      (printed.flatMap (StopText.text gap))
    exact head.trans (blocksFrom_stops blank valid)
  rw [stops, scanned, expanded, List.flatMap_map]
  refine congrArg (fun entries => sortStops entries.flatten) (List.map_congr_left fun stop member => ?_)
  have first := valid stop member
  rw [Block.stops, offsets_offsetsText blank blank blank first.nonempty first.offsets,
    declarations_declarationsText blank fun d member => (first.declarations d member).legible, List.map_map]
  rfl

theorem unsigned_of_mem_expanded {printed : List StopText} (valid : ∀ stop ∈ printed, stop.Valid) :
    ∀ stop ∈ expanded printed, Unsigned stop.offset := by
  intro stop member
  obtain ⟨source, inside, isStop⟩ := List.mem_flatMap.mp member
  obtain ⟨offset, isOffset, rfl⟩ := List.mem_map.mp isStop
  exact (OffsetWord.value_mem_unit ((valid source inside).offsets offset isOffset)).1

def declaredAnimation? (selectors : Text) (ds : List Declaration) : Option Animation :=
  match animationFields (declared ds) with
  | .error _ => none
  | .ok fields => bound? selectors (declared ds) fields

/-- What an item binds, under its selectors with single spaces. -/
def Item.binding? : Item → Option (Text × Animation)
  | .keyframes .. => none
  | .rule selector ds =>
    let selectors := joinWith [' '] (words selector)
    (declaredAnimation? selectors ds).map fun animation => (selectors, animation)

theorem joinWith_words_ne_nil {t : Text} (solid : ∃ c ∈ t, isBlank c = false) : joinWith [' '] (words t) ≠ [] := by
  obtain ⟨c, member, notBlank⟩ := solid
  have filled : words t ≠ [] := by
    intro none
    rw [words_eq_nil.mp none c member] at notBlank
    cases notBlank
  refine joinWith_ne_nil filled fun word isWord => ?_
  simpa using (List.mem_filter.mp isWord).2

theorem mem_of_mem_joinWith_words {t : Text} {c : Char} (member : c ∈ joinWith [' '] (words t)) :
    c ∈ t ∨ c = ' ' := by
  rcases mem_joinWith member with ⟨word, inside, stands⟩ | space
  · exact .inl (mem_of_mem_splitBy (List.mem_filter.mp inside).1 stands)
  · exact .inr (List.mem_singleton.mp space)

theorem animationFields_declared {ds : List Declaration} (valid : ∀ d ∈ ds, d.Valid) :
    ∃ fields, animationFields (declared ds) = .ok fields := by
  refine animationFields_succeeds fun names found => ?_
  obtain ⟨found, filled⟩ := filled?_eq_some.mp found
  rw [declared, Table.get?_ofList] at found
  have entry := Table.mem_of_get? found
  obtain ⟨d, isDeclaration, same⟩ := List.mem_map.mp (List.mem_reverse.mp entry)
  obtain ⟨name, rfl⟩ := Prod.mk.inj same
  exact (valid d isDeclaration).named name filled

theorem Block.animation?_printed (blank : ∀ c ∈ gap, isBlank c) {pending : Text}
    (blankPending : ∀ c ∈ pending, isBlank c) {selector : Text} {ds : List Declaration}
    (valid : (Item.rule selector ds).Valid) :
    Block.animation? ⟨pending ++ selector ++ gap, declarationsText gap ds⟩ =
      .ok (declaredAnimation? (joinWith [' '] (words selector)) ds) := by
  obtain ⟨component, solid, valid⟩ := valid
  have group : Block.group ⟨pending ++ selector ++ gap, declarationsText gap ds⟩ = joinWith [' '] (words selector) := by
    rw [Block.group, words_around blankPending blank]
  have isRule : ¬ (joinWith [' '] (words selector) = [] ∨ (joinWith [' '] (words selector)).head? = some '@') := by
    rintro (none | atRule)
    · exact joinWith_words_ne_nil solid none
    · rcases mem_of_mem_joinWith_words (List.mem_of_mem_head? atRule) with inside | space
      · exact (component.braces '@' inside).2.2 rfl
      · cases space
  obtain ⟨fields, read⟩ := animationFields_declared valid
  rw [Block.animation?_eq, group, if_neg isRule, declarations_declarationsText blank fun d member => (valid d member).legible,
    declaredAnimation?, read]
  rfl

theorem filterMapM_rules (blank : ∀ c ∈ gap, isBlank c) {items : List Item} (valid : ∀ item ∈ items, item.Valid)
    {pending : Text} (blankPending : ∀ c ∈ pending, isBlank c) :
    (blocksFrom (fun _ => true) pending none (items.flatMap (Item.rest gap))).filterMapM Block.animation? =
      .ok ((items.filterMap Item.binding?).map (·.2)) := by
  induction items generalizing pending with
  | nil => rfl
  | cons item items ih =>
    obtain ⟨first, others⟩ := List.forall_mem_cons.mp valid
    rw [List.flatMap_cons]
    cases item with
    | keyframes name stops =>
      have blankBoth : ∀ c ∈ pending ++ gap, isBlank c := List.forall_mem_append.mpr ⟨blankPending, blank⟩
      rw [Item.rest, blocksFrom_head (fun _ _ => rfl) (flat_of_isBlank blank), ih others blankBoth]
      rfl
    | rule selector ds =>
      have flatSelector : ∀ c ∈ selector, c ≠ '{' ∧ c ≠ '}' :=
        fun c member => ⟨(first.1.braces c member).1, (first.1.braces c member).2.1⟩
      have flat : ∀ c ∈ selector ++ gap, c ≠ '{' ∧ c ≠ '}' :=
        List.forall_mem_append.mpr ⟨flatSelector, flat_of_isBlank blank⟩
      have nonempty : selector ≠ [] := by
        rintro rfl
        obtain ⟨c, member, _⟩ := first.2.1
        cases member
      rw [Item.rest, blocksFrom_blockText nonempty (fun _ _ => rfl) flat (flat_declarationsText blank first.2.2),
        List.filterMapM_cons, Block.animation?_printed blank blankPending first]
      have rest := ih others blank
      cases bound : declaredAnimation? (joinWith [' '] (words selector)) ds with
      | none =>
        have unbound : Item.binding? (.rule selector ds) = none := by simp only [Item.binding?, bound, Option.map_none]
        rw [List.filterMap_cons_none unbound]
        exact rest
      | some animation =>
        have binding : Item.binding? (.rule selector ds) = some (joinWith [' '] (words selector), animation) := by
          simp only [Item.binding?, bound, Option.map_some]
        rw [List.filterMap_cons_some binding, List.map_cons]
        change (_ >>= _) = _
        rw [rest]
        rfl

end Printed

end Flipbook.Css
