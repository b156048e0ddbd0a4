import Flipbook.Frame.Resolve
import Flipbook.Proofs.Number.Difference
import Flipbook.Proofs.Outcome

namespace Flipbook.Frame

open Css Binary64

/-- Neighbouring stops with an instant after the one and not after the other, as they are searched for. -/
structure Between (stops : List Stop) (progress : Float) (low high : Stop) : Prop where
  neighbours : ∃ before after, stops = before ++ low :: high :: after
  below : low.offset < progress
  reached : progress ≤ high.offset
  found : ∀ first last, surrounding progress first last stops = (low, high)

theorem Between.less {stops : List Stop} {progress : Float} {low high : Stop}
    (between : Between stops progress low high) : low.offset < high.offset :=
  Binary64.lt_of_lt_of_le between.below between.reached

theorem Between.mem {stops : List Stop} {progress : Float} {low high : Stop}
    (between : Between stops progress low high) : low ∈ stops ∧ high ∈ stops := by
  obtain ⟨before, after, rfl⟩ := between.neighbours
  simp

theorem exists_between {progress : Float} {low last : Stop} {rest : List Stop}
    (sorted : (low :: rest).Pairwise (·.offset ≤ ·.offset)) (final : (low :: rest).getLast? = some last)
    (after : low.offset < progress) (before : progress < last.offset) :
    ∃ low' high, Between (low :: rest) progress low' high := by
  induction rest generalizing low with
  | nil =>
    cases final
    exact absurd (Binary64.le_of_lt before) (Binary64.not_le_of_lt after)
  | cons high rest ih =>
    by_cases reached : progress ≤ high.offset
    · refine ⟨low, high, ⟨[], rest, rfl⟩, after, reached, fun first last => ?_⟩
      exact if_pos ⟨Binary64.le_of_lt after, reached⟩
    · obtain ⟨least, sorted⟩ := List.pairwise_cons.mp sorted
      have number := (le_iff_rank.mp (least high List.mem_cons_self)).2.1
      have passed := Binary64.lt_of_not_le (lt_iff_rank.mp before).1 number reached
      rw [List.getLast?_cons_cons] at final
      obtain ⟨low', high', ⟨before', after', split⟩, below, reached', found⟩ := ih sorted final passed
      refine ⟨low', high', ⟨low :: before', after', by rw [split]; rfl⟩, below, reached', fun first last => ?_⟩
      unfold surrounding
      rw [if_neg fun holds => reached holds.2]
      exact found first last

/-- How much of the way from one stop to another lies behind an instant. -/
def way (low high : Stop) (progress : Float) : Float := (progress - low.offset) / (high.offset - low.offset)

/-- The properties a part of the way from one stop to another: those of the first, then those that only the second has.
    What both have is interpolated, anything else is as it was written. -/
structure Blended (low high : Stop) (part : Float) (timing : Option Text) (properties : Properties) : Prop where
  names : properties.names =
    low.properties.names ++ high.properties.names.filter fun name => !low.properties.contains name
  shared : ∀ name start finish, low.properties.get? name = some start → high.properties.get? name = some finish →
    ∃ text, interpolate start finish part timing = .ok text ∧ properties.get? name = some text
  onlyLow : ∀ name start, low.properties.get? name = some start → high.properties.get? name = none →
    properties.get? name = some start
  onlyHigh : ∀ name finish, low.properties.get? name = none → high.properties.get? name = some finish →
    properties.get? name = some finish

def blendProperty (high : Properties) (part : Float) (timing : Option Text) (property : Text × Text) :
    Except NumberError (Text × Text) :=
  match high.get? property.1 with
  | some finish => do return (property.1, ← interpolate property.2 finish part timing)
  | none => return property

theorem blendStops_eq {low high : Stop} {progress : Float} (timing : Option Text)
    (span : 0.0 < high.offset - low.offset) :
    blendStops low high progress timing =
      low.properties.mapM (blendProperty high.properties (way low high progress) timing)
        >>= fun blended =>
          .ok (blended ++ high.properties.filter fun property => !low.properties.contains property.1) := by
  unfold blendStops
  simp only [if_pos span]
  rfl

def Becomes (high : Properties) (part : Float) (timing : Option Text) (name start text : Text) : Prop :=
  match high.get? name with
  | some finish => interpolate start finish part timing = .ok text
  | none => text = start

theorem blendProperty_ok {high : Properties} {part : Float} {timing : Option Text} {property result : Text × Text}
    (computed : blendProperty high part timing property = .ok result) :
    result.1 = property.1 ∧ Becomes high part timing property.1 property.2 result.2 := by
  unfold blendProperty at computed
  unfold Becomes
  cases shared : high.get? property.1 with
  | none =>
    rw [shared] at computed
    cases computed
    exact ⟨rfl, rfl⟩
  | some finish =>
    rw [shared] at computed
    obtain ⟨text, blended, same⟩ := bind_eq_ok computed
    cases same
    exact ⟨rfl, blended⟩

theorem rel_get? {R : Text → Text → Text → Prop} {table table' : Properties}
    (related : List.Forall₂ (fun entry entry' => entry'.1 = entry.1 ∧ R entry.1 entry.2 entry'.2) table table')
    (name : Text) : Option.Rel (R name) (table.get? name) (table'.get? name) := by
  induction related with
  | nil => exact .none
  | @cons entry entry' _ _ first others ih =>
    obtain ⟨known, value⟩ := entry
    obtain ⟨known', value'⟩ := entry'
    obtain ⟨kept, relates⟩ := first
    simp only at kept relates
    rw [Table.get?_cons, Table.get?_cons, kept]
    by_cases same : known = name
    · rw [if_pos same, if_pos same, ← same]
      exact .some relates
    · rw [if_neg same, if_neg same]
      exact ih

theorem blended_of_blendStops {low high : Stop} {progress : Float} {timing : Option Text} {properties : Properties}
    (span : 0.0 < high.offset - low.offset) (computed : blendStops low high progress timing = .ok properties) :
    Blended low high (way low high progress) timing properties := by
  rw [blendStops_eq timing span] at computed
  generalize way low high progress = part at computed ⊢
  obtain ⟨blended, mapped, whole⟩ := bind_eq_ok computed
  cases whole
  have names : Table.names blended = low.properties.names :=
    mapM_fst (fun _ _ entry => (blendProperty_ok entry).1) mapped
  have values (name : Text) :
      Option.Rel (Becomes high.properties part timing name) (low.properties.get? name) (Table.get? blended name) :=
    rel_get? ((forall₂_of_mapM mapped).imp fun _ _ entry => blendProperty_ok entry) name
  have first {name start : Text} (here : low.properties.get? name = some start) :
      ∃ text, Becomes high.properties part timing name start text ∧
        Table.get? (blended ++ high.properties.filter fun property => !low.properties.contains property.1) name =
          some text := by
    have value := values name
    rw [here] at value
    generalize found : Table.get? blended name = text? at value
    cases value with
    | some becomes => exact ⟨_, becomes, by rw [Table.get?_append, found]; rfl⟩
  constructor
  · unfold Table.names at names ⊢
    rw [List.map_append, names, List.filter_map]
    rfl
  · intro name start finish here there
    obtain ⟨text, becomes, found⟩ := first here
    unfold Becomes at becomes
    rw [there] at becomes
    exact ⟨text, becomes, found⟩
  · intro name start here missing
    obtain ⟨text, becomes, found⟩ := first here
    unfold Becomes at becomes
    rw [missing] at becomes
    rw [found, becomes]
  · intro name finish missing there
    have value := values name
    rw [missing] at value
    have absent : (!low.properties.contains name) = true := by
      rw [Table.contains_eq_isSome, missing]
      rfl
    have kept := @Table.get?_filter _ _ _ (fun name => !low.properties.contains name) high.properties name absent
    rw [Table.get?_append, kept, there]
    generalize Table.get? blended name = text? at value
    cases value
    rfl

theorem exists_of_blendStops_error {low high : Stop} {progress : Float} {timing : Option Text} {fault : NumberError}
    (span : 0.0 < high.offset - low.offset) (failed : blendStops low high progress timing = .error fault) :
    ∃ name start finish, (name, start) ∈ low.properties ∧ high.properties.get? name = some finish ∧
      interpolate start finish (way low high progress) timing = .error fault := by
  rw [blendStops_eq timing span] at failed
  rcases bind_eq_error.mp failed with failed | ⟨blended, -, impossible⟩
  · obtain ⟨⟨name, start⟩, member, cause⟩ := exists_of_mapM_error failed
    unfold blendProperty at cause
    cases shared : high.properties.get? name with
    | none =>
      simp only [shared] at cause
      cases cause
    | some finish =>
      simp only [shared] at cause
      rcases bind_eq_error.mp cause with cause | ⟨text, -, impossible⟩
      · exact ⟨name, start, finish, member, shared, cause⟩
      · cases impossible
  · cases impossible

theorem interpolate_at_one (start finish : Text) (timing : Option Text) :
    interpolate start finish (1.0 : Float) timing = .ok finish := by
  have above : Scalar.le (1.0 : Float) 0.0 = false := by decide +kernel
  have reached : Scalar.le (1.0 : Float) 1.0 = true := by decide +kernel
  unfold interpolate
  rw [above, reached]
  rfl

theorem way_eq_one {low high : Stop} {progress : Float} (less : low.offset < high.offset)
    (finite : isFinite (high.offset - low.offset)) (same : progress == high.offset) : way low high progress = 1.0 := by
  unfold way
  rw [sub_congr_of_beq same less]
  exact div_self finite (sub_pos less)

theorem blended_at_one {low high : Stop} {timing : Option Text} {properties : Properties}
    (blended : Blended low high 1.0 timing properties) {name finish : Text}
    (there : high.properties.get? name = some finish) : properties.get? name = some finish := by
  cases here : low.properties.get? name with
  | none => exact blended.onlyHigh name finish here there
  | some start =>
    obtain ⟨text, interpolated, found⟩ := blended.shared name start finish here there
    rw [interpolate_at_one] at interpolated
    cases interpolated
    exact found

theorem atProgress_eq {stops : List Stop} {first last : Stop} {progress : Float} (timing : Option Text)
    (head : stops.head? = some first) (final : stops.getLast? = some last) (after : first.offset < progress)
    (before : progress < last.offset) :
    atProgress stops progress timing =
      blendStops (surrounding progress first last stops).1 (surrounding progress first last stops).2 progress
        timing := by
  cases stops with
  | nil => cases head
  | cons stop rest =>
    cases head
    cases rest with
    | nil =>
      cases final
      exact absurd (Binary64.le_of_lt before) (Binary64.not_le_of_lt after)
    | cons next others =>
      rw [List.getLast?_cons_cons] at final
      have ends : (next :: others).getLast?.getD first = last := by rw [final]; rfl
      unfold atProgress
      simp only [ends, List.isEmpty_cons, Bool.false_eq_true, false_or, if_neg (Binary64.not_le_of_lt after),
        if_neg (Binary64.not_le_of_lt before)]

/-- What the properties at an instant are, between two neighbouring stops. -/
structure Resolved (stops : List Stop) (progress : Float) (timing : Option Text) (low high : Stop) : Prop where
  apart : 0.0 < high.offset - low.offset
  blended : ∀ properties, atProgress stops progress timing = .ok properties →
    Blended low high (way low high progress) timing properties
  failed : ∀ fault, atProgress stops progress timing = .error fault →
    ∃ name start finish, (name, start) ∈ low.properties ∧ high.properties.get? name = some finish ∧
      interpolate start finish (way low high progress) timing = .error fault
  finite : (∀ stop ∈ stops, 0.0 ≤ stop.offset ∧ stop.offset ≤ 1.0) → isFinite (high.offset - low.offset)
  atStop : isFinite (high.offset - low.offset) → progress == high.offset →
    ∃ properties, atProgress stops progress timing = .ok properties ∧
      ∀ name finish, high.properties.get? name = some finish → properties.get? name = some finish

theorem resolved_of_between {stops : List Stop} {first last low high : Stop} {progress : Float}
    (timing : Option Text) (head : stops.head? = some first) (final : stops.getLast? = some last)
    (after : first.offset < progress) (before : progress < last.offset) (between : Between stops progress low high) :
    Resolved stops progress timing low high := by
  have apart : 0.0 < high.offset - low.offset := sub_pos between.less
  have same : atProgress stops progress timing = blendStops low high progress timing := by
    rw [atProgress_eq timing head final after before, between.found]
  constructor
  · exact apart
  · rw [same]
    exact fun properties => blended_of_blendStops apart
  · rw [same]
    exact fun fault => exists_of_blendStops_error apart
  · intro unit
    obtain ⟨above, below⟩ := unit low between.mem.1
    obtain ⟨above', below'⟩ := unit high between.mem.2
    exact isFinite_sub (isFinite_of_mem_unit above' below') (isFinite_of_mem_unit above below) above' above
  · intro finite reached
    have whole := way_eq_one between.less finite reached
    rw [same]
    cases computed : blendStops low high progress timing with
    | ok properties =>
      have blended := blended_of_blendStops apart computed
      rw [whole] at blended
      exact ⟨properties, rfl, fun name finish => blended_at_one blended⟩
    | error fault =>
      obtain ⟨name, start, finish, -, -, failed⟩ := exists_of_blendStops_error apart computed
      rw [whole, interpolate_at_one] at failed
      cases failed

/-- Between the first and the last of sorted stops the properties come from two neighbours that are apart. -/
theorem atProgress_between {stops : List Stop} {first last : Stop} {progress : Float} (timing : Option Text)
    (sorted : stops.Pairwise (·.offset ≤ ·.offset)) (head : stops.head? = some first)
    (final : stops.getLast? = some last) (after : first.offset < progress) (before : progress < last.offset) :
    ∃ low high, Between stops progress low high ∧ Resolved stops progress timing low high := by
  have search : ∃ low high, Between stops progress low high := by
    cases stops with
    | nil => cases head
    | cons stop rest =>
      cases head
      exact exists_between sorted final after before
  obtain ⟨low, high, between⟩ := search
  exact ⟨low, high, between, resolved_of_between timing head final after before between⟩

def turning : List Stop :=
  [⟨0.0, [("x".toList, "0".toList)]⟩, ⟨0.5, [("x".toList, "10".toList), ("y".toList, "1".toList)]⟩,
    ⟨0.5, [("x".toList, "20".toList)]⟩, ⟨1.0, [("x".toList, "0".toList)]⟩]

theorem atProgress_between_turning : turning.Pairwise (·.offset ≤ ·.offset) ∧
    ∃ low high, Between turning 0.5 low high ∧ Resolved turning 0.5 none low high := by
  have sorted : turning.Pairwise (·.offset ≤ ·.offset) := by decide +kernel
  exact ⟨sorted, atProgress_between none sorted rfl rfl (by decide +kernel) (by decide +kernel)⟩

-- At the half the earlier of the two stops there counts, and a moment later what follows the later one.
example : (atProgress turning 0.5 none).toOption = some [("x".toList, "10".toList), ("y".toList, "1".toList)] ∧
    (atProgress turning 0.75 none).toOption = some [("x".toList, "10".toList)] := by decide +kernel

end Flipbook.Frame
