import Flipbook.Proofs.Css.KeyframesRule
import Flipbook.Proofs.Css.Marks
import Flipbook.Proofs.Text.ScanRuns

namespace Flipbook.Css

open Text Pattern

/-- The keyframes of a sheet with their places. -/
def keyframesSpans (css : Text) : List (Placed KeyframesRule) := keyframesRule.places css

/-- A span that begins at a header. It ends just behind the brace that closes it, with what stands between them for
    the body; if no brace closes it, it is the last one and reaches to the end of the sheet. -/
inductive SpanOf (css : Text) (m : Placed KeyframesRule) : Prop
  | closed {header after : Text} (isHeader : HeaderText m.value.name header)
      (shape : css.drop m.start = header ++ (m.value.body ++ '}' :: after))
      (block : ClosedBlock ('{' :: m.value.body ++ ['}']))
      (stop : m.stop = m.start + (header ++ m.value.body).length + 1)
  | unclosed {header rest : Text} (isHeader : HeaderText m.value.name header) (shape : css.drop m.start = header ++ rest)
      (never : NeverEven ('{' :: rest)) (body : m.value.body = unclosedBody rest) (stop : m.stop = css.length)
      (last : (keyframesSpans css).getLast? = some m)

section Spans

variable {css : Text} {m : Placed KeyframesRule}

theorem lt_length_of_mem (member : m ∈ keyframesSpans css) : m.start < css.length := by
  have read := read_of_mem_places keyframesRule_faithful member
  by_contra beyond
  rw [List.drop_eq_nil_of_le (Nat.not_lt.mp beyond), read_nil keyframesRule_faithful] at read
  cases read

theorem keyframesSpans_ordered (css : Text) : (keyframesSpans css).Pairwise fun m m' => m.stop ≤ m'.start :=
  (run_places keyframesRule_faithful css).ordered

theorem getLast?_of_stop (member : m ∈ keyframesSpans css) (stop : m.stop = css.length) :
    (keyframesSpans css).getLast? = some m := by
  have ordered := keyframesSpans_ordered css
  have inside : ∀ m' ∈ keyframesSpans css, m'.start < css.length := fun _ => lt_length_of_mem
  obtain ⟨before, after, split⟩ := List.append_of_mem member
  rw [split] at ordered inside ⊢
  have next := (List.pairwise_cons.mp (List.pairwise_append.mp ordered).2.1).1
  cases after with
  | nil => exact List.getLast?_concat
  | cons m' after =>
    have follows := next m' List.mem_cons_self
    have starts := inside m' (by simp)
    omega

theorem spanOf_of_mem (member : m ∈ keyframesSpans css) : SpanOf css m := by
  have bound := lt_length_of_mem member
  have text := keyframesRule_eq_some.mp (read_of_mem_places keyframesRule_faithful member)
  cases text with
  | closed isHeader shape block whole =>
    refine .closed isHeader shape block ?_
    rw [Placed.stop, whole, List.length_append, List.length_singleton, Nat.add_assoc]
  | unclosed isHeader shape never body whole =>
    have stop : m.stop = css.length := by
      rw [Placed.stop, whole, List.length_drop]
      omega
    exact .unclosed isHeader shape never body stop (getLast?_of_stop member stop)

theorem header_within {name header rest : Text} {n : Nat} (isHeader : HeaderText name header)
    (here : css.drop n = header ++ rest) : ∃ m ∈ keyframesSpans css, m.start ≤ n ∧ n < m.stop := by
  by_contra absent
  have passed : ∀ m ∈ keyframesSpans css, m.start ≤ n → m.stop ≤ n := fun m member starts =>
    Nat.not_lt.mp fun inside => absent ⟨m, member, starts, inside⟩
  have none := (run_places keyframesRule_faithful css).none_outside (Nat.zero_le n) passed
  rw [keyframesRule_eq_none, keyframesHeader?_eq_some.mpr ⟨here, isHeader⟩] at none
  cases none

end Spans

theorem findAll_eq_map_places {α : Type} (p : Pattern α) (t : Text) : p.findAll t = (p.places t).map (·.value) := by
  unfold findAll places
  generalize p.scan t = pieces
  generalize 0 = start
  induction pieces generalizing start with
  | nil => rfl
  | cons piece rest ih =>
    cases piece with
    | found value lexeme => exact congrArg (value :: ·) (ih _)
    | plain c => exact ih _

theorem keyframes_eq {css : Text} (unmarked : Unmarked css) :
    keyframes css = .ofList ((keyframesSpans css).map fun m => (m.value.name, stops m.value.body)) := by
  rw [keyframes, stripComments_of_unmarked unmarked, findAll_eq_map_places, List.map_map]
  rfl

theorem get?_last {α β : Type} {key : α → Text} {value : α → β} {before after : List α} {m : α}
    (last : ∀ later ∈ after, key later ≠ key m) :
    (Table.ofList ((before ++ m :: after).map fun m => (key m, value m))).get? (key m) = some (value m) := by
  have absent : key m ∉ Table.names (after.map fun m => (key m, value m)).reverse := by
    intro stands
    obtain ⟨entry, member, same⟩ := List.mem_map.mp stands
    obtain ⟨later, inside, rfl⟩ := List.mem_map.mp (List.mem_reverse.mp member)
    exact last later inside same
  rw [Table.get?_ofList, List.map_append, List.map_cons, List.reverse_append, List.reverse_cons, List.append_assoc,
    Table.get?_append, Table.get?_eq_none absent, List.singleton_append, Table.get?_cons, if_pos rfl]
  rfl

/-- The search for keyframes ends, with spans one after the other that are what they should be, and no header stands
    outside of them. What is left of a sheet is what stands there. Each name is in the table once, where it first came, with the stops of its
    last body. -/
theorem keyframes_spans (css : Text) :
    (∀ found, Run keyframesRule css 0 found ↔ found = keyframesSpans css) ∧
    ((keyframesSpans css).Pairwise fun m m' => m.stop ≤ m'.start) ∧
    (∀ m ∈ keyframesSpans css, SpanOf css m) ∧
    (∀ n name header rest, HeaderText name header → css.drop n = header ++ rest →
      ∃ m ∈ keyframesSpans css, m.start ≤ n ∧ n < m.stop) ∧
    removeKeyframes css = outside (keyframesSpans css) 0 css ∧
    (Unmarked css →
      (keyframes css).names = ((keyframesSpans css).map (·.value.name)).eraseDups ∧
      ∀ before m after, keyframesSpans css = before ++ m :: after →
        (∀ later ∈ after, later.value.name ≠ m.value.name) →
          (keyframes css).get? m.value.name = some (stops m.value.body)) := by
  have run := run_places keyframesRule_faithful css
  refine ⟨fun found => ⟨fun other => other.unique run, ?_⟩, run.ordered, fun m => spanOf_of_mem,
    fun n name header rest => header_within, erase_eq keyframesRule_faithful css,
    fun unmarked => ⟨?_, fun before m after split last => ?_⟩⟩
  · rintro rfl
    exact run
  · rw [keyframes_eq unmarked, Table.names_ofList, List.map_map]
    rfl
  · rw [keyframes_eq unmarked, split]
    exact get?_last last

theorem keyframes_spans_twice :
    Unmarked "@keyframes k{from{x:0}}a{}@keyframes k{to{x:1}}".toList ∧
      (keyframes "@keyframes k{from{x:0}}a{}@keyframes k{to{x:1}}".toList).names = ["k".toList] ∧
        (keyframes "@keyframes k{from{x:0}}a{}@keyframes k{to{x:1}}".toList).get? "k".toList =
          some (stops "to{x:1}".toList) := by
  have unmarked : Unmarked "@keyframes k{from{x:0}}a{}@keyframes k{to{x:1}}".toList := by decide +kernel
  have spans : keyframesSpans "@keyframes k{from{x:0}}a{}@keyframes k{to{x:1}}".toList =
      [⟨0, ⟨"k".toList, "from{x:0}".toList⟩, "@keyframes k{from{x:0}}".toList⟩,
        ⟨26, ⟨"k".toList, "to{x:1}".toList⟩, "@keyframes k{to{x:1}}".toList⟩] := by decide +kernel
  obtain ⟨-, -, -, -, -, table⟩ := keyframes_spans "@keyframes k{from{x:0}}a{}@keyframes k{to{x:1}}".toList
  obtain ⟨names, last⟩ := table unmarked
  refine ⟨unmarked, ?_, last [_] ⟨26, ⟨_, _⟩, _⟩ [] spans (List.forall_mem_nil _)⟩
  rw [names, spans]
  rfl

end Flipbook.Css
