import Flipbook.Proofs.Css.BlocksScan

namespace Flipbook.Css

open Text

theorem selectorGroup_of_bound? {group : Text} {properties : Properties} {fields : AnimationFields}
    {animation : Animation} (bound : bound? group properties fields = some animation) :
    animation.selectorGroup = group := by
  unfold bound? at bound
  split at bound
  · cases bound
  · cases bound
  · split at bound
    · cases bound
    · cases bound
      rfl

theorem selectorGroup_of_binding? {item : Item} {selectors : Text} {animation : Animation}
    (binding : item.binding? = some (selectors, animation)) : animation.selectorGroup = selectors := by
  cases item with
  | keyframes name stops => cases binding
  | rule selector ds =>
    obtain ⟨animation, found, same⟩ := Option.map_eq_some_iff.mp binding
    cases same
    unfold declaredAnimation? at found
    split at found
    · cases found
    · exact selectorGroup_of_bound? found

section Printed

variable {gap : Text} {items : List Item}

theorem valid_of_keyframes? (valid : ∀ item ∈ items, item.Valid) {name : Text} {printed : List StopText}
    (member : (name, printed) ∈ items.filterMap Item.keyframes?) : ∀ stop ∈ printed, stop.Valid := by
  obtain ⟨item, inside, found⟩ := List.mem_filterMap.mp member
  cases item with
  | keyframes name stops =>
    cases found
    exact (valid _ inside).2.2
  | rule selector ds => cases found

theorem keyframes_sheetText (blank : ∀ c ∈ gap, isBlank c) (valid : ∀ item ∈ items, item.Valid) :
    keyframes (sheetText gap items) =
      .ofList ((items.filterMap Item.keyframes?).map fun block => (block.1, sortStops (expanded block.2))) := by
  rw [keyframes, stripComments_sheetText blank valid, findAll_sheetText blank valid, List.map_map]
  refine congrArg Table.ofList (List.map_congr_left fun block member => ?_)
  exact congrArg (block.1, ·) (stops_stopsText blank (valid_of_keyframes? valid member))

theorem animations_sheetText (blank : ∀ c ∈ gap, isBlank c) (valid : ∀ item ∈ items, item.Valid) :
    animations (sheetText gap items) = .ok (.ofList (items.filterMap Item.binding?)) := by
  have read : (rules (sheetText gap items)).filterMapM Block.animation? =
      .ok ((items.filterMap Item.binding?).map (·.2)) := by
    rw [rules, stripComments_sheetText blank valid, removeKeyframes_sheetText blank valid]
    exact filterMapM_rules blank valid (List.forall_mem_nil _)
  have named : ((items.filterMap Item.binding?).map (·.2)).map (fun animation => (animation.selectorGroup, animation)) =
      items.filterMap Item.binding? := by
    rw [List.map_map]
    refine (List.map_congr_left fun binding member => ?_).trans (List.map_id _)
    obtain ⟨item, _, found⟩ := List.mem_filterMap.mp member
    exact Prod.ext (selectorGroup_of_binding? found) rfl
  rw [animations_eq, read]
  exact congrArg (fun entries => Except.ok (Table.ofList entries)) named

/-- Whatever the order and the repetitions: keyframes stand where their name first came and have the stops of
    the last block of the name, sorted by offset; a binding stands where its selectors were first bound and is
    that of the last rule which names an animation for them. -/
theorem sheet_reads_back (blank : ∀ c ∈ gap, isBlank c) (valid : ∀ item ∈ items, item.Valid) :
    (keyframes (sheetText gap items)).names = ((items.filterMap Item.keyframes?).map (·.1)).eraseDups ∧
      (∀ name, Option.Rel (fun printed stops => StablySorted (expanded printed) stops)
        (Table.get? (items.filterMap Item.keyframes?).reverse name) ((keyframes (sheetText gap items)).get? name)) ∧
      ∃ bindings, animations (sheetText gap items) = .ok bindings ∧
        bindings.names = ((items.filterMap Item.binding?).map (·.1)).eraseDups ∧
        ∀ selectors, bindings.get? selectors = Table.get? (items.filterMap Item.binding?).reverse selectors := by
  refine ⟨?_, fun name => ?_, _, animations_sheetText blank valid, Table.names_ofList _, Table.get?_ofList _⟩
  · rw [keyframes_sheetText blank valid, Table.names_ofList, List.map_map]
    rfl
  · rw [keyframes_sheetText blank valid, Table.get?_ofList, ← List.map_reverse,
      Table.get?_map fun printed => sortStops (expanded printed)]
    cases found : Table.get? (items.filterMap Item.keyframes?).reverse name with
    | none => exact .none
    | some printed =>
      have member := List.mem_reverse.mp (Table.mem_of_get? found)
      exact .some (sortStops_stablySorted (unsigned_of_mem_expanded (valid_of_keyframes? valid member)))

end Printed

def spinSheet : List Item :=
  [.keyframes "spin".toList [⟨[.start, .percent "50".toList []], [⟨"opacity".toList, "0".toList⟩]⟩],
    .rule ".a  b".toList [⟨"animation-name".toList, "spin".toList⟩, ⟨"fill".toList, "red".toList⟩],
    .keyframes "spin".toList [⟨[.finish, .percent "12".toList "5".toList], []⟩]]

theorem sheet_reads_back_spin : (∀ c ∈ [' '], isBlank c) ∧ (∀ item ∈ spinSheet, item.Valid) ∧
    (keyframes (sheetText [' '] spinSheet)).names = ["spin".toList] ∧
      (∃ stops, (keyframes (sheetText [' '] spinSheet)).get? "spin".toList = some stops ∧
        StablySorted (expanded [⟨[.finish, .percent "12".toList "5".toList], []⟩]) stops) ∧
      ∃ bindings, animations (sheetText [' '] spinSheet) = .ok bindings ∧ bindings.names = [".a b".toList] := by
  have blank : ∀ c ∈ [' '], isBlank c := List.forall_mem_singleton.mpr (by decide)
  have valid : ∀ item ∈ spinSheet, item.Valid := by decide +kernel
  obtain ⟨names, blocks, bindings, read, selectors, _⟩ := sheet_reads_back blank valid
  refine ⟨blank, valid, names.trans (by decide +kernel), ?_, bindings, read, selectors.trans (by decide +kernel)⟩
  have last : Table.get? (spinSheet.filterMap Item.keyframes?).reverse "spin".toList =
      some [⟨[.finish, .percent "12".toList "5".toList], []⟩] := rfl
  have block := blocks "spin".toList
  rw [last] at block
  cases found : (keyframes (sheetText [' '] spinSheet)).get? "spin".toList with
  | none =>
    rw [found] at block
    cases block
  | some stops =>
    rw [found] at block
    cases block with
    | some sorted => exact ⟨stops, rfl, sorted⟩

end Flipbook.Css
