import Flipbook.Proofs.Css.TokenText

namespace Flipbook.Css

open Text

variable {sep : Char → Bool}

/-- The text without the separators outside parentheses, where it begins at `depth`. -/
def dropOutside (sep : Char → Bool) (depth : Nat) : Text → Text
  | [] => []
  | c :: rest =>
    if sep c ∧ deepen depth c = 0 then dropOutside sep (deepen depth c) rest
    else c :: dropOutside sep (deepen depth c) rest

theorem splitOutside_flatten (sep : Char → Bool) (depth : Nat) (t : Text) :
    (splitOutside sep depth t).flatten = dropOutside sep depth t := by
  induction t generalizing depth with
  | nil => rfl
  | cons c rest ih =>
    obtain ⟨piece, pieces, tail, whole⟩ := splitOutside_cons sep depth c rest
    have later := ih (deepen depth c)
    rw [tail] at later
    rw [whole, dropOutside, ← later]
    by_cases cut : sep c ∧ deepen depth c = 0
    · simp [cut]
    · rw [if_neg cut, if_neg (by simpa using cut)]
      rfl

theorem unbroken_or_cut (sep : Char → Bool) (depth : Nat) (t : Text) : Unbroken sep depth t ∨
    ∃ first c rest, t = first ++ c :: rest ∧ Unbroken sep depth first ∧ sep c ∧ depthAfter depth (first ++ [c]) = 0 := by
  induction t generalizing depth with
  | nil => exact .inl trivial
  | cons c rest ih =>
    by_cases cut : sep c ∧ deepen depth c = 0
    · exact .inr ⟨[], c, rest, rfl, trivial, cut⟩
    · have here : deepen depth c = 0 → sep c = false := fun outside => by simpa [outside] using cut
      refine (ih (deepen depth c)).imp (fun unbroken => ⟨here, unbroken⟩) ?_
      rintro ⟨first, d, later, rfl, unbroken, isCut⟩
      exact ⟨c :: first, d, later, rfl, ⟨here, unbroken⟩, isCut⟩

theorem cut_induction (sep : Char → Bool) {P : Text → Prop} (unbroken : ∀ t, Unbroken sep 0 t → P t)
    (cut : ∀ first c rest, Unbroken sep 0 first → sep c → depthAfter 0 (first ++ [c]) = 0 → P rest →
      P (first ++ c :: rest)) (t : Text) : P t := by
  induction size : t.length using Nat.strongRecOn generalizing t with
  | ind n ih =>
    rcases unbroken_or_cut sep 0 t with whole | ⟨first, c, rest, rfl, free, isSep, outside⟩
    · exact unbroken t whole
    · exact cut first c rest free isSep outside (ih rest.length (by simp [← size]; omega) rest rfl)

/-- The piece stands between two separators outside parentheses, or the ends of the text, and has none in it. Depths
    are counted from the beginning of the text. -/
structure CutOut (sep : Char → Bool) (before piece after : Text) : Prop where
  starts : before = [] ∨ ∃ lead c, before = lead ++ [c] ∧ sep c ∧ depthAfter 0 lead = 0
  covered : ∀ head c tail, piece = head ++ c :: tail → sep c → 0 < depthAfter 0 (before ++ head)
  ends : after = [] ∨ ∃ c tail, after = c :: tail ∧ sep c ∧ depthAfter 0 (before ++ piece) = 0

def IsCutOut (sep : Char → Bool) (piece t : Text) : Prop :=
  ∃ before after, t = before ++ piece ++ after ∧ CutOut sep before piece after

section Separators

variable (separates : ∀ c, sep c → isBlank c ∨ c = ',')
include separates

theorem unbroken_iff_covered {before piece : Text} (level : depthAfter 0 before = 0) : Unbroken sep 0 piece ↔
    ∀ head c tail, piece = head ++ c :: tail → sep c → 0 < depthAfter 0 (before ++ head) := by
  rw [unbroken_iff]
  refine forall₅_congr fun head c tail _ isSep => ?_
  rw [depthAfter_concat (separates c isSep), depthAfter_append, level]

theorem CutOut.mem_splitOutside {before piece after : Text} (cutOut : CutOut sep before piece after) :
    piece ∈ splitOutside sep 0 (before ++ piece ++ after) := by
  obtain ⟨starts, covered, ends⟩ := cutOut
  have level : depthAfter 0 before = 0 := by
    rcases starts with rfl | ⟨lead, c, rfl, isSep, outside⟩
    · rfl
    · rw [depthAfter_concat (separates c isSep), outside]
  have unbroken : Unbroken sep 0 piece := (unbroken_iff_covered separates level).mpr covered
  have first : piece ∈ splitOutside sep 0 (piece ++ after) := by
    rcases ends with rfl | ⟨c, tail, rfl, isSep, outside⟩
    · rw [List.append_nil, unbroken.splitOutside_eq]
      exact List.mem_singleton_self piece
    · rw [depthAfter_append, level] at outside
      rw [splitOutside_cut unbroken isSep (by rw [depthAfter_concat (separates c isSep), outside])]
      exact List.mem_cons_self
  rw [List.append_assoc]
  rcases starts with rfl | ⟨lead, c, rfl, isSep, outside⟩
  · exact first
  · rw [List.append_assoc, List.singleton_append, splitOutside_append_cons isSep level]
    exact List.mem_append_right _ first

theorem isCutOut_of_mem {piece t : Text} (member : piece ∈ splitOutside sep 0 t) : IsCutOut sep piece t := by
  induction t using cut_induction sep with
  | unbroken t whole =>
    rw [whole.splitOutside_eq, List.mem_singleton] at member
    subst member
    exact ⟨[], [], by simp, .inl rfl, (unbroken_iff_covered separates rfl).mp whole, .inl rfl⟩
  | cut first c rest free isSep outside ih =>
    rw [splitOutside_cut free isSep outside] at member
    rcases List.mem_cons.mp member with rfl | later
    · rw [depthAfter_concat (separates c isSep)] at outside
      exact ⟨[], c :: rest, rfl, .inl rfl, (unbroken_iff_covered separates rfl).mp free,
        .inr ⟨c, rest, rfl, isSep, outside⟩⟩
    · obtain ⟨before, after, rfl, starts, covered, ends⟩ := ih later
      have behind (u : Text) : depthAfter 0 (first ++ c :: u) = depthAfter 0 u := by
        rw [← List.singleton_append, ← List.append_assoc, depthAfter_append, outside]
      refine ⟨first ++ c :: before, after, by simp, .inr ?_, fun head d tail shape isSep' => ?_, ?_⟩
      · rw [depthAfter_concat (separates c isSep)] at outside
        rcases starts with rfl | ⟨lead, d, rfl, isSep', outside'⟩
        · exact ⟨first, c, rfl, isSep, outside⟩
        · exact ⟨first ++ c :: lead, d, by simp, isSep', by rw [behind, outside']⟩
      · rw [List.append_assoc, List.cons_append, behind]
        exact covered head d tail shape isSep'
      · rw [List.append_assoc, List.cons_append, behind]
        exact ends

/-- The pieces of a split are what is cut out of the text. -/
theorem mem_splitOutside_iff {piece t : Text} : piece ∈ splitOutside sep 0 t ↔ IsCutOut sep piece t := by
  refine ⟨isCutOut_of_mem separates, ?_⟩
  rintro ⟨before, after, rfl, cutOut⟩
  exact cutOut.mem_splitOutside separates

theorem apart_splitOutside (t : Text) : Apart sep (splitOutside sep 0 t) := by
  induction t using cut_induction sep with
  | unbroken t whole =>
    rw [whole.splitOutside_eq]
    exact ⟨whole, fun more => absurd rfl more, trivial⟩
  | cut first c rest free isSep outside ih =>
    rw [splitOutside_cut free isSep outside]
    rw [depthAfter_concat (separates c isSep)] at outside
    exact ⟨free, fun _ => outside, ih⟩

end Separators

theorem Apart.filter {ts : List Text} (apart : Apart sep ts) (keeps : Text → Bool) : Apart sep (ts.filter keeps) := by
  induction ts with
  | nil => trivial
  | cons t ts ih =>
    obtain ⟨unbroken, closed, later⟩ := apart
    rw [List.filter_cons]
    split
    · refine ⟨unbroken, fun more => closed ?_, ih later⟩
      rintro rfl
      exact more rfl
    · exact ih later

theorem depthAfter_trim (t : Text) : depthAfter 0 (trim t) = depthAfter 0 t := by
  obtain ⟨before, after, shape, blankBefore, blankAfter, _⟩ := exists_trim t
  conv_rhs => rw [shape]
  rw [depthAfter_append, depthAfter_append, depthAfter_of_blank blankBefore, depthAfter_of_blank blankAfter]

theorem Unbroken.trim {t : Text} (unbroken : Unbroken sep 0 t) : Unbroken sep 0 (trim t) := by
  obtain ⟨before, after, shape, blankBefore, _, _⟩ := exists_trim t
  rw [shape] at unbroken
  have inside := (unbroken_append.mp (unbroken_append.mp unbroken).1).2
  rwa [depthAfter_of_blank blankBefore] at inside

theorem Apart.map_trim {ts : List Text} (apart : Apart sep ts) : Apart sep (ts.map trim) := by
  induction ts with
  | nil => trivial
  | cons t ts ih =>
    obtain ⟨unbroken, closed, later⟩ := apart
    refine ⟨unbroken.trim, fun more => ?_, ih later⟩
    rw [depthAfter_trim]
    exact closed fun none => more (by rw [none]; rfl)

theorem comma_separates (c : Char) (comma : decide (c = ',')) : isBlank c ∨ c = ',' := .inr (of_decide_eq_true comma)

theorem mem_tokens_iff {t token : Text} : token ∈ tokens t ↔ token ≠ [] ∧ IsCutOut isBlank token t := by
  unfold tokens
  rw [List.mem_filter, mem_splitOutside_iff fun _ => .inl, and_comm]
  simp

theorem mem_layers_iff {t layer : Text} :
    layer ∈ layers t ↔ layer ≠ [] ∧ ∃ piece, IsCutOut (· = ',') piece t ∧ trim piece = layer := by
  unfold layers
  rw [List.mem_filter, List.mem_map, and_comm]
  simp only [mem_splitOutside_iff comma_separates]
  simp

theorem apart_tokens (t : Text) : Apart isBlank (tokens t) := (apart_splitOutside (fun _ => .inl) t).filter _

theorem apart_layers (t : Text) : Apart (· = ',') (layers t) :=
  (apart_splitOutside comma_separates t).map_trim.filter _

theorem Apart.unbroken_of_mem {ts : List Text} (apart : Apart sep ts) {t : Text} (member : t ∈ ts) : Unbroken sep 0 t := by
  induction ts with
  | nil => cases member
  | cons first ts ih =>
    rcases List.mem_cons.mp member with rfl | later
    · exact apart.1
    · exact ih apart.2.2 later

/-- Tokens are what is cut out of a text at blanks outside parentheses, and lose nothing but those. Layers are what is
    cut out at commas outside parentheses and trimmed. Put together again, they are split as before. -/
theorem tokens_and_layers (t : Text) :
    (∀ token, token ∈ tokens t ↔ token ≠ [] ∧ IsCutOut isBlank token t) ∧
      (tokens t).flatten = dropOutside isBlank 0 t ∧
      tokens (joinWith [' '] (tokens t)) = tokens t ∧
    (∀ layer, layer ∈ layers t ↔ layer ≠ [] ∧ ∃ piece, IsCutOut (· = ',') piece t ∧ trim piece = layer) ∧
      (∀ layer ∈ layers t, layer ≠ [] ∧ Trimmed layer ∧
        ∀ head tail, layer = head ++ ',' :: tail → 0 < depthAfter 0 head) ∧
      layers (joinWith [','] (layers t)) = layers t := by
  have filled : ∀ token ∈ tokens t, token ≠ [] := fun token member => (mem_tokens_iff.mp member).1
  have filled' : ∀ layer ∈ layers t, layer ≠ [] := fun layer member => (mem_layers_iff.mp member).1
  have trimmed : ∀ layer ∈ layers t, Trimmed layer := by
    intro layer member
    obtain ⟨-, piece, -, rfl⟩ := mem_layers_iff.mp member
    exact trimmed_trim piece
  have kept : (tokens t).flatten = dropOutside isBlank 0 t := by
    rw [← splitOutside_flatten]
    exact List.flatten_filter_not_isEmpty
  refine ⟨fun _ => mem_tokens_iff, kept, (apart_tokens t).tokens_joinWith filled, fun _ => mem_layers_iff,
    fun layer member => ⟨filled' layer member, trimmed layer member, ?_⟩, (apart_layers t).layers_joinWith filled' trimmed⟩
  intro head tail shape
  have unbroken := (apart_layers t).unbroken_of_mem member
  have level : depthAfter 0 [] = 0 := rfl
  exact (unbroken_iff_covered comma_separates level).mp unbroken head ',' tail shape rfl

-- A parenthesis too many closes nothing, and one that stays open holds the rest of the text.
example : tokens "fade (1s, 2s) ) wobble( 3s ".toList =
    ["fade".toList, "(1s, 2s)".toList, ")".toList, "wobble( 3s ".toList] := by decide +kernel

end Flipbook.Css
