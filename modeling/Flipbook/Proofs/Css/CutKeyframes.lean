import Flipbook.Proofs.Css.BlockPlaces
import Flipbook.Proofs.Css.KeyframesAppend
import Flipbook.Proofs.Css.StopOrder
import Flipbook.Proofs.Table

namespace Flipbook.Css

open Text Pattern

/-- The last keyframes of the sheet have this name, and of what stands behind their header only the brace is missing
    that closes them. -/
structure CutOff (css name rest : Text) : Prop where
  last : ∃ m header, (keyframesSpans css).getLast? = some m ∧ m.value.name = name ∧ HeaderText name header ∧
    css.drop m.start = header ++ rest
  missing : Closes 0 rest

theorem CutOff.scan {css name rest : Text} (cutOff : CutOff css name rest) : ∃ before header,
    keyframesRule.scan css = before ++ [.found ⟨name, unclosedBody rest⟩ (header ++ rest)] ∧
      keyframesRule.scan (css ++ ['}']) = before ++ [.found ⟨name, rest⟩ (header ++ rest ++ ['}'])] := by
  obtain ⟨⟨m, header, last, rfl, isHeader, shape⟩, missing⟩ := cutOff
  obtain ⟨before, after, cut, place⟩ := mem_places.mp (List.mem_of_getLast? last)
  have closed := fun rule lexeme => @closed_of_scan css before _ cut (List.cons_ne_nil _ _) rule lexeme
  obtain ⟨tail, split, scanned, whole⟩ := scan_append_of_closed cut closed fun t _ _ => parted_brace t
  have same : tail = header ++ rest := by
    rw [← shape, split, place, List.drop_left]
  subst same
  have open_ : keyframesRule (header ++ rest) = some (⟨m.value.name, unclosedBody rest⟩, header ++ rest) :=
    keyframesRule_eq_some.mpr (.unclosed isHeader rfl (covered_iff_neverEven.mp missing.covered) rfl rfl)
  have text : header ++ rest ++ ['}'] = header ++ (rest ++ '}' :: []) := List.append_assoc ..
  have ended : keyframesRule (header ++ rest ++ ['}']) = some (⟨m.value.name, rest⟩, header ++ rest ++ ['}']) :=
    keyframesRule_eq_some.mpr (.closed isHeader text (closedBlock_iff.mpr missing) rfl)
  rw [scan_of_some keyframesRule_faithful open_ (List.append_nil _).symm] at scanned
  rw [scan_of_some keyframesRule_faithful ended (List.append_nil _).symm] at whole
  refine ⟨before, header, ?_, whole⟩
  rw [cut, ← scanned]
  rfl

theorem keyframes_of_scan {css name body lexeme : Text} (unmarked : Unmarked css)
    {before : List (Piece KeyframesRule)} (scanned : keyframesRule.scan css = before ++ [.found ⟨name, body⟩ lexeme]) :
    keyframes css = (Table.ofList ((before.filterMap Piece.value?).map fun rule => (rule.name, stops rule.body))).insert
      name (stops body) := by
  rw [keyframes, stripComments_of_unmarked unmarked, findAll, scanned, List.filterMap_append, List.map_append]
  exact List.foldl_append

theorem CutOff.keyframes_eq {css name rest : Text} (unmarked : Unmarked css) (cutOff : CutOff css name rest) :
    ∃ table : Table (List Stop), keyframes css = table.insert name (stops (unclosedBody rest)) ∧
      keyframes (css ++ ['}']) = table.insert name (stops rest) := by
  obtain ⟨before, header, cut, whole⟩ := cutOff.scan
  have unmarked' : Unmarked (css ++ ['}']) := unmarked.cut unmarked_nil (by decide)
  exact ⟨_, keyframes_of_scan unmarked cut, keyframes_of_scan unmarked' whole⟩

theorem blocks_concat (isHead : Char → Bool) (t : Text) :
    blocks isHead (t ++ ['}']) = blocks isHead t ++ (Reading.start.after isHead t).inside.toList := by
  have whole : blocks isHead (t ++ ['}']) = blocks isHead t ++ (Reading.start.after isHead t).blocks isHead ['}'] :=
    Reading.blocks_append .start t ['}']
  rw [whole, Reading.blocks_cons]
  exact congrArg (blocks isHead t ++ ·) (List.append_nil _)

theorem sortStops_append_eq_iff (stops more : List Stop) : sortStops stops = sortStops (stops ++ more) ↔ more = [] := by
  constructor
  · intro same
    have length := congrArg List.length same
    rw [(sortStops_perm stops).length_eq, (sortStops_perm _).length_eq, List.length_append] at length
    exact List.length_eq_zero_iff.mp (by omega)
  · rintro rfl
    rw [List.append_nil]

theorem stops_unclosedBody_iff (rest : Text) : stops (unclosedBody rest) = stops rest ↔
    ∀ block, BlockEnds isStopHead rest rest.length block → offsets block.head = [] := by
  induction rest using List.reverseRecOn with
  | nil =>
    refine iff_of_true rfl fun block ends => ?_
    obtain ⟨before, after, shape, -⟩ := ends.stands
    cases before <;> cases shape
  | append_singleton t c =>
    have ends (block : Block) : BlockEnds isStopHead (t ++ [c]) (t ++ [c]).length block ↔
        c = '}' ∧ (Reading.start.after isStopHead t).inside = some block := by
      rw [Reading.inside_after, List.length_append]
      exact blockEnds_iff_opened
    simp only [ends]
    by_cases isClose : c = '}'
    · subst isClose
      have body : unclosedBody (t ++ ['}']) = t := by simp [unclosedBody]
      rw [body, stops, stops, blocks_concat, List.flatMap_append, sortStops_append_eq_iff]
      cases (Reading.start.after isStopHead t).inside with
      | none => simp
      | some block => simp [Block.stops]
    · have body : unclosedBody (t ++ [c]) = t ++ [c] := by simp [unclosedBody, isClose]
      rw [body]
      exact iff_of_true rfl fun block closed => absurd closed.1 isClose

/-- Keyframes that lack only their own brace get with it the stops of their whole body. Nothing is lost without it
    exactly if no stop stands at the end of the sheet. -/
theorem keyframes_cutOff {css name rest : Text} (unmarked : Unmarked css) (cutOff : CutOff css name rest) :
    (keyframes css).get? name = some (stops (unclosedBody rest)) ∧
      keyframes (css ++ ['}']) = (keyframes css).insert name (stops rest) ∧
        (keyframes css = keyframes (css ++ ['}']) ↔
          ∀ block, BlockEnds isStopHead rest rest.length block → offsets block.head = []) := by
  obtain ⟨table, short, long⟩ := cutOff.keyframes_eq unmarked
  rw [← stops_unclosedBody_iff, short, long]
  refine ⟨?_, (Table.insert_insert table name _ _).symm, fun same => ?_, fun same => by rw [same]⟩
  · rw [Table.get?_insert, if_pos rfl]
  · have entry := congrArg (Table.get? · name) same
    simp only [Table.get?_insert, if_true, Option.some.injEq] at entry
    exact entry

theorem keyframes_cutOff_lastStop :
    Unmarked "@keyframes k\x7bfrom{x:0}to{x:1}".toList ∧
      CutOff "@keyframes k\x7bfrom{x:0}to{x:1}".toList "k".toList "from{x:0}to{x:1}".toList ∧
        keyframes "@keyframes k\x7bfrom{x:0}to{x:1}".toList ≠ keyframes "@keyframes k{from{x:0}to{x:1}}".toList := by
  have unmarked : Unmarked "@keyframes k\x7bfrom{x:0}to{x:1}".toList := by decide +kernel
  have last : (keyframesSpans "@keyframes k\x7bfrom{x:0}to{x:1}".toList).getLast? = some
      ⟨0, ⟨"k".toList, "from{x:0}to\x7bx:1".toList⟩, "@keyframes k\x7bfrom{x:0}to{x:1}".toList⟩ := by decide +kernel
  have header : keyframesHeader? "@keyframes k\x7bfrom{x:0}to{x:1}".toList =
      some ("k".toList, "@keyframes k\x7b".toList, "from{x:0}to{x:1}".toList) := by decide +kernel
  have closes : closeBrace? 0 "from{x:0}to{x:1}\x7d".toList = some ("from{x:0}to{x:1}".toList, []) := by
    decide +kernel
  have cutOff : CutOff "@keyframes k\x7bfrom{x:0}to{x:1}".toList "k".toList "from{x:0}to{x:1}".toList :=
    ⟨⟨_, _, last, rfl, (keyframesHeader?_eq_some.mp header).2, rfl⟩, (closeBrace?_eq_some.mp closes).2⟩
  refine ⟨unmarked, cutOff, fun same => ?_⟩
  have inside : (Reading.start.after isStopHead "from{x:0}to\x7bx:1".toList).inside =
      some ⟨"to".toList, "x:1".toList⟩ := by decide +kernel
  have ends : BlockEnds isStopHead "from{x:0}to{x:1}".toList 16 ⟨"to".toList, "x:1".toList⟩ :=
    blockEnds_iff_opened.mpr ⟨rfl, Reading.inside_after.mp inside⟩
  have lost := (keyframes_cutOff unmarked cutOff).2.2.mp same _ ends
  revert lost
  decide +kernel

end Flipbook.Css
