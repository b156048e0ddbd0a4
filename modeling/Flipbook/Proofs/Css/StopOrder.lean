import Flipbook.Css.Keyframes
import Flipbook.Proofs.Number.Order

namespace Flipbook.Css

open Binary64

/-- The stops of `source` by offset, those at one offset as they stood. -/
structure StablySorted (source sorted : List Stop) : Prop where
  perm : sorted.Perm source
  ordered : sorted.Pairwise (·.offset ≤ ·.offset)
  stable : ∀ offset, sorted.filter (·.offset == offset) = source.filter (·.offset == offset)

def Stop.AtMost (stop other : Stop) : Prop := bits stop.offset ≤ bits other.offset

instance : DecidableRel Stop.AtMost := fun stop other =>
  inferInstanceAs (Decidable (bits stop.offset ≤ bits other.offset))

instance : Std.Total Stop.AtMost := ⟨fun stop other => Nat.le_total (bits stop.offset) (bits other.offset)⟩

instance : IsTrans Stop Stop.AtMost := ⟨fun _ _ _ => Nat.le_trans⟩

theorem placeStop_eq_orderedInsert {stop : Stop} {stops : List Stop} (unsigned : Unsigned stop.offset)
    (others : ∀ other ∈ stops, Unsigned other.offset) :
    placeStop stop stops = stops.orderedInsert Stop.AtMost stop := by
  induction stops with
  | nil => rfl
  | cons other rest ih =>
    obtain ⟨first, later⟩ := List.forall_mem_cons.mp others
    have placed := ih later
    have compared : stop.offset ≤ other.offset ↔ stop.AtMost other := le_iff_bits unsigned first
    rw [placeStop, List.orderedInsert_cons, placed]
    simp only [compared]

theorem sortStops_eq_insertionSort {stops : List Stop} (unsigned : ∀ stop ∈ stops, Unsigned stop.offset) :
    sortStops stops = stops.insertionSort Stop.AtMost := by
  induction stops with
  | nil => rfl
  | cons stop rest ih =>
    obtain ⟨first, others⟩ := List.forall_mem_cons.mp unsigned
    have sorted : sortStops (stop :: rest) = placeStop stop (sortStops rest) := rfl
    rw [sorted, ih others, List.insertionSort_cons]
    refine placeStop_eq_orderedInsert first fun other member => ?_
    exact others other ((List.mem_insertionSort _).mp member)

theorem sortStops_stablySorted {source : List Stop} (unsigned : ∀ stop ∈ source, Unsigned stop.offset) :
    StablySorted source (sortStops source) := by
  rw [sortStops_eq_insertionSort unsigned]
  have perm := List.perm_insertionSort Stop.AtMost source
  have unsigned' : ∀ stop ∈ source.insertionSort Stop.AtMost, Unsigned stop.offset :=
    fun stop member => unsigned stop (perm.mem_iff.mp member)
  refine ⟨perm, ?_, fun offset => ?_⟩
  · refine (List.pairwise_insertionSort Stop.AtMost source).imp_of_mem fun left right atMost => ?_
    exact (le_iff_bits (unsigned' _ left) (unsigned' _ right)).mpr atMost
  · -- the stops at one offset are sorted as they stand, and sorting keeps what stands sorted
    have level : (source.filter (·.offset == offset)).Pairwise Stop.AtMost := by
      refine List.pairwise_of_forall_mem_list fun stop member other member' => ?_
      obtain ⟨inside, same⟩ := List.mem_filter.mp member
      obtain ⟨inside', same'⟩ := List.mem_filter.mp member'
      have equal : stop.offset = other.offset :=
        (beq_iff (unsigned stop inside) (unsigned other inside')).mp
          (PartialEquivBEq.trans same (PartialEquivBEq.symm same'))
      unfold Stop.AtMost
      rw [equal]
    have kept : (source.filter (·.offset == offset)).Sublist (source.insertionSort Stop.AtMost) :=
      List.sublist_insertionSort level List.filter_sublist
    have inside := kept.filter (·.offset == offset)
    rw [List.filter_filter] at inside
    simp only [Bool.and_self] at inside
    exact (inside.eq_of_length (perm.filter _).length_eq.symm).symm

theorem placeStop_perm (stop : Stop) (stops : List Stop) : (placeStop stop stops).Perm (stop :: stops) := by
  induction stops with
  | nil => rfl
  | cons other rest ih =>
    unfold placeStop
    split
    · rfl
    · exact (ih.cons other).trans (.swap stop other rest)

theorem sortStops_perm (stops : List Stop) : (sortStops stops).Perm stops := by
  induction stops with
  | nil => rfl
  | cons stop rest ih => exact (placeStop_perm stop (sortStops rest)).trans (ih.cons stop)

theorem pairwise_placeStop {stop : Stop} {stops : List Stop} (number : IsNumber stop.offset)
    (numbers : ∀ other ∈ stops, IsNumber other.offset) (sorted : stops.Pairwise (·.offset ≤ ·.offset)) :
    (placeStop stop stops).Pairwise (·.offset ≤ ·.offset) := by
  induction stops with
  | nil => exact List.pairwise_singleton _ _
  | cons other rest ih =>
    obtain ⟨first, others⟩ := List.forall_mem_cons.mp numbers
    obtain ⟨least, ordered⟩ := List.pairwise_cons.mp sorted
    unfold placeStop
    split
    · rename_i atMost
      apply List.pairwise_cons.mpr ⟨_, sorted⟩
      intro later member
      rcases List.mem_cons.mp member with rfl | member
      · exact atMost
      · exact Binary64.le_trans atMost (least later member)
    · rename_i more
      apply List.pairwise_cons.mpr ⟨_, ih others ordered⟩
      intro later member
      rcases List.mem_cons.mp ((placeStop_perm stop rest).mem_iff.mp member) with rfl | member
      · exact Binary64.le_of_lt (Binary64.lt_of_not_le number first more)
      · exact least later member

theorem pairwise_sortStops {stops : List Stop} (numbers : ∀ stop ∈ stops, IsNumber stop.offset) :
    (sortStops stops).Pairwise (·.offset ≤ ·.offset) := by
  induction stops with
  | nil => exact .nil
  | cons stop rest ih =>
    obtain ⟨first, others⟩ := List.forall_mem_cons.mp numbers
    apply pairwise_placeStop first
    · exact fun other member => others other ((sortStops_perm rest).mem_iff.mp member)
    · exact ih others

theorem mem_unit_of_offset? {t : Text} {offset : Float} (read : offset? t = some offset) :
    0.0 ≤ offset ∧ offset ≤ 1.0 := by
  unfold offset? at read
  simp only at read
  split at read
  · cases read
    decide +kernel
  · split at read
    · cases read
      decide +kernel
    · split at read
      · split at read
        · rename_i within
          cases read
          exact within
        · cases read
      · cases read

theorem stops_sorted (body : Text) :
    (stops body).Pairwise (·.offset ≤ ·.offset) ∧ ∀ stop ∈ stops body, 0.0 ≤ stop.offset ∧ stop.offset ≤ 1.0 := by
  have unit : ∀ stop ∈ (blocks isStopHead body).flatMap Block.stops, 0.0 ≤ stop.offset ∧ stop.offset ≤ 1.0 := by
    intro stop member
    obtain ⟨block, -, inside⟩ := List.mem_flatMap.mp member
    obtain ⟨offset, listed, rfl⟩ := List.mem_map.mp inside
    obtain ⟨word, -, read⟩ := List.mem_filterMap.mp listed
    exact mem_unit_of_offset? read
  constructor
  · exact pairwise_sortStops fun stop member => (le_iff_rank.mp (unit stop member).2).1
  · exact fun stop member => unit stop ((sortStops_perm _).mem_iff.mp member)

end Flipbook.Css
