import Flipbook.Config.Settings
import Flipbook.Proofs.Outcome

namespace Flipbook

namespace Configuration

/-- A configuration of sections that share nothing. -/
def ofSections (sections : Table (Table Setting)) : Configuration where
  mappings :=
    let placed := sections.zipIdx 1
    (0, placed.map fun ((name, _), node) => (.text name, .mapping node)) ::
      placed.map fun ((_, settings), node) => (node, settings.map fun (name, value) => (.text name, value))

variable {config : Configuration} {sectionName name : String}

theorem isZeroOrLess_of_positive {amount : Amount} (checked : config.positive sectionName name = .ok amount) :
    amount.isZeroOrLess = false := by
  unfold positive at checked
  simp only at checked
  split at checked
  · split at checked
    · cases checked
    · rename_i above
      cases checked
      exact Bool.eq_false_iff.mpr above
  · cases checked

theorem positive_of_positiveInteger {n : Int} (checked : config.positiveInteger sectionName name = .ok n) :
    0 < n := by
  unfold positiveInteger at checked
  split at checked
  · split at checked
    · rename_i above
      cases checked
      exact above
    · cases checked
  · cases checked

theorem positive_of_optionalInteger {count : Option Int}
    (checked : config.optionalInteger sectionName name = .ok count) {n : Int} (given : count = some n) : 0 < n := by
  unfold optionalInteger at checked
  split at checked
  · cases checked
    cases given
  · obtain ⟨found, positive, same⟩ := bind_eq_ok checked
    cases same
    cases given
    exact positive_of_positiveInteger positive

end Configuration

namespace Settings

structure Checked (settings : Settings) : Prop where
  rate : settings.frames.rate.isZeroOrLess = false
  canvas : settings.frames.canvas.isZeroOrLess = false
  count : ∀ count, settings.frames.count = some count → ∃ n : Int, count = .whole n ∧ 0 < n
  workers : ∃ n : Int, settings.frames.workers = some (.whole n) ∧ 0 < n
  sheetFrameWidth : 0 < settings.sheetFrameWidth
  sheetColumns : ∀ columns, settings.sheetColumns = some columns → 0 < columns

variable {config : Configuration} {settings : Settings}

theorem of_accepted (accepted : ofConfiguration config = .ok settings) :
    config.complete = .ok settings.configuration ∧ settings.Checked := by
  obtain ⟨full, completed, accepted⟩ := bind_eq_ok accepted
  obtain ⟨rate, checkedRate, accepted⟩ := bind_eq_ok accepted
  obtain ⟨count, checkedCount, accepted⟩ := bind_eq_ok accepted
  obtain ⟨canvas, checkedCanvas, accepted⟩ := bind_eq_ok accepted
  obtain ⟨width, checkedWidth, accepted⟩ := bind_eq_ok accepted
  obtain ⟨columns, checkedColumns, accepted⟩ := bind_eq_ok accepted
  obtain ⟨workers, checkedWorkers, accepted⟩ := bind_eq_ok accepted
  cases accepted
  refine ⟨completed, ?_⟩
  exact {
    rate := Configuration.isZeroOrLess_of_positive checkedRate
    canvas := Configuration.isZeroOrLess_of_positive checkedCanvas
    count := by
      intro amount given
      obtain ⟨n, found, whole⟩ := Option.map_eq_some_iff.mp given
      exact ⟨n, whole.symm, Configuration.positive_of_optionalInteger checkedCount found⟩
    workers := ⟨workers, rfl, Configuration.positive_of_positiveInteger checkedWorkers⟩
    sheetFrameWidth := Configuration.positive_of_positiveInteger checkedWidth
    sheetColumns := fun _ given => Configuration.positive_of_optionalInteger checkedColumns given }

theorem checked_of_accepted (accepted : ofConfiguration config = .ok settings) : settings.Checked :=
  (of_accepted accepted).2

end Settings

end Flipbook
