import Flipbook.Proofs.Css.Printed
import Flipbook.Proofs.Table

namespace Flipbook.Css

open Text

theorem nodup_declarations (t : Text) : (declarations t).names.Nodup := Table.nodup_ofList _

theorem declarations_cut (a b : Text) : declarations (a ++ ';' :: b) = (declarations a).update (declarations b) := by
  have parted : splitBy (· = ';') (a ++ ';' :: b) = splitBy (· = ';') a ++ splitBy (· = ';') b :=
    splitBy_append_cons a b (decide_eq_true rfl)
  rw [declarations, parted, List.filterMap_append, Table.ofList_append]
  rfl

theorem declared_of_nodup {ds : List Declaration} (distinct : (ds.map (·.name)).Nodup) :
    declared ds = ds.map fun d => (d.name, d.value) := by
  refine Table.ofList_of_nodup ?_
  rw [List.map_map]
  exact distinct

theorem declarations_text {ds : List Declaration} (legible : ∀ d ∈ ds, d.Legible)
    (distinct : (ds.map (·.name)).Nodup) :
    declarations (ds.flatMap (Declaration.text [])) = ds.map fun d => (d.name, d.value) := by
  have read : declarations (declarationsText [] ds) = declared ds :=
    declarations_declarationsText (List.forall_mem_nil _) legible
  rw [declarationsText, List.nil_append] at read
  rw [read, declared_of_nodup distinct]

/-- Declarations are read piece by piece: those behind a semicolon go over those in front of it, so that a name which
    is there already keeps its place and takes the new value. Printed declarations of distinct names are read back,
    each in its place. -/
theorem declarations_piecewise :
    (∀ a b : Text, declarations (a ++ ';' :: b) = (declarations a).update (declarations b) ∧
      Table.Overlays (declarations b) (declarations a) (declarations (a ++ ';' :: b))) ∧
    ∀ ds : List Declaration, (∀ d ∈ ds, d.Legible) → (ds.map (·.name)).Nodup →
      declarations (ds.flatMap (Declaration.text [])) = ds.map fun d => (d.name, d.value) := by
  refine ⟨fun a b => ⟨declarations_cut a b, ?_⟩, fun ds legible distinct => declarations_text legible distinct⟩
  rw [declarations_cut]
  exact Table.overlays_update _ (nodup_declarations b)

theorem declarations_piecewise_ink :
    let ds : List Declaration := [⟨"fill".toList, "url(data:a, b)".toList⟩, ⟨"ink depth".toList, []⟩]
    (∀ d ∈ ds, d.Legible) ∧ (ds.map (·.name)).Nodup ∧
      declarations "fill:url(data:a, b);ink depth:;".toList =
        [("fill".toList, "url(data:a, b)".toList), ("ink depth".toList, [])] ∧
      declarations "fill:url(data:a, b);ink depth:;;fill:red".toList =
        [("fill".toList, "red".toList), ("ink depth".toList, [])] := by
  intro ds
  have legible : ∀ d ∈ ds, d.Legible := by decide +kernel
  have distinct : (ds.map (·.name)).Nodup := by decide +kernel
  have read := declarations_piecewise.2 ds legible distinct
  have overlaid := (declarations_piecewise.1 "fill:url(data:a, b);ink depth:;".toList "fill:red".toList).1
  have below : declarations "fill:url(data:a, b);ink depth:;".toList =
      [("fill".toList, "url(data:a, b)".toList), ("ink depth".toList, [])] := read
  refine ⟨legible, distinct, below, overlaid.trans ?_⟩
  rw [below]
  decide +kernel

end Flipbook.Css
