import Flipbook.Proofs.Css.BlockPlaces
import Flipbook.Proofs.Css.OffsetRange
import Flipbook.Proofs.Css.StopOrder

namespace Flipbook.Css

open Text Binary64

/-- The stops of a block as its selector lists them, without the parts that are no offsets. -/
def Block.listed (block : Block) : List Stop :=
  (splitBy (· = ',') block.head).filterMap fun part => (offset? part).map (⟨·, declarations block.body⟩)

theorem Block.stops_eq_listed (block : Block) : block.stops = block.listed := List.map_filterMap

theorem Block.unsigned_of_mem_listed {block : Block} {stop : Stop} (member : stop ∈ block.listed) :
    Unsigned stop.offset := by
  obtain ⟨part, -, read⟩ := List.mem_filterMap.mp member
  obtain ⟨x, accepted, rfl⟩ := Option.map_eq_some_iff.mp read
  exact (offset?_eq_some_iff.mp accepted).unsigned

/-- The stops of a body are sorted and between 0 and 1. There is one for each part of a selector that is an offset,
    with the declarations behind that selector, and those at one offset are in the order of the body. -/
theorem stops_stablySorted (body : Text) : ∃ placed : List (Nat × Block),
    placed.Pairwise (·.1 < ·.1) ∧ (∀ stop block, (stop, block) ∈ placed ↔ BlockEnds isStopHead body stop block) ∧
      StablySorted (placed.flatMap fun (_, block) => block.listed) (stops body) ∧
        (∀ part x, offset? part = some x ↔ OffsetPart part x) ∧
          ∀ stop ∈ stops body, 0.0 ≤ stop.offset ∧ stop.offset ≤ 1.0 := by
  obtain ⟨placed, same, ordered, members⟩ := blocks_placed isStopHead body
  refine ⟨placed, ordered, members, ?_, fun _ _ => offset?_eq_some_iff, (stops_sorted body).2⟩
  have listed : (blocks isStopHead body).flatMap Block.stops = placed.flatMap fun (_, block) => block.listed := by
    rw [← same, List.flatMap_map]
    exact congrArg (placed.flatMap ·) (funext fun (_, block) => block.stops_eq_listed)
  rw [stops, listed]
  refine sortStops_stablySorted fun stop member => ?_
  obtain ⟨⟨_, block⟩, -, inside⟩ := List.mem_flatMap.mp member
  exact block.unsigned_of_mem_listed inside

theorem stops_above_hundred :
    PlainText "100.000000000000001".toList ⟨100000000000000001, -15⟩ ∧
      100 < Decimal.toRat ⟨100000000000000001, -15⟩ ∧
        (stops "100.000000000000001%{x:1}".toList).map (bits ·.offset) = [bits 1.0] := by
  refine ⟨?_, by decide +kernel, by decide +kernel⟩
  have whole : "100".toList.all isDigit := by decide +kernel
  have fraction : "000000000000001".toList.all isDigit := by decide +kernel
  exact .pointed (List.all_eq_true.mp whole) (List.cons_ne_nil _ _) (List.all_eq_true.mp fraction)

end Flipbook.Css
