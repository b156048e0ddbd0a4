import Flipbook.Css.Animation
import Flipbook.Proofs.Css.PlainDecimal

namespace Flipbook.Css

open Text

theorem splitOutside_ne_nil (sep : Char → Bool) (depth : Nat) (t : Text) : splitOutside sep depth t ≠ [] := by
  cases t with
  | nil => simp [splitOutside]
  | cons c rest =>
    unfold splitOutside
    split
    · simp
    · split <;> simp

theorem splitOutside_cons (sep : Char → Bool) (depth : Nat) (c : Char) (rest : Text) :
    ∃ piece pieces, splitOutside sep (deepen depth c) rest = piece :: pieces ∧
      splitOutside sep depth (c :: rest) =
        if sep c && deepen depth c = 0 then [] :: piece :: pieces else (c :: piece) :: pieces := by
  obtain ⟨piece, pieces, tail⟩ := List.exists_cons_of_ne_nil (splitOutside_ne_nil sep (deepen depth c) rest)
  exact ⟨piece, pieces, tail, by rw [splitOutside, tail]⟩

theorem mem_splitOutside (sep : Char → Bool) {t : Text} {c : Char} (member : c ∈ t) (depth : Nat) :
    sep c ∨ ∃ piece ∈ splitOutside sep depth t, c ∈ piece := by
  induction t generalizing depth with
  | nil => cases member
  | cons d rest ih =>
    obtain ⟨piece, pieces, tail, whole⟩ := splitOutside_cons sep depth d rest
    rw [whole]
    rcases List.mem_cons.mp member with rfl | later
    · by_cases isSep : sep c
      · exact .inl isSep
      · exact .inr ⟨c :: piece, by simp [isSep], by simp⟩
    · refine (ih later (deepen depth d)).imp_right ?_
      rintro ⟨other, inside, stands⟩
      rw [tail] at inside
      split
      · exact ⟨other, List.mem_cons_of_mem _ inside, stands⟩
      · rcases List.mem_cons.mp inside with rfl | inside
        · exact ⟨d :: other, by simp, List.mem_cons_of_mem _ stands⟩
        · exact ⟨other, List.mem_cons_of_mem _ inside, stands⟩

theorem splitOutside_of_flat (sep : Char → Bool) {t : Text} (flat : '(' ∉ t) :
    splitOutside sep 0 t = splitBy sep t := by
  induction t with
  | nil => rfl
  | cons c rest ih =>
    rw [List.mem_cons, not_or] at flat
    have level : deepen 0 c = 0 := by
      unfold deepen
      rw [if_neg (Ne.symm flat.1)]
      split <;> rfl
    obtain ⟨piece, pieces, tail, whole⟩ := splitOutside_cons sep 0 c rest
    rw [level, ih flat.2] at tail
    rw [whole, splitBy, tail, level]
    simp

theorem layers_eq_nil {t : Text} : layers t = [] ↔ ∀ c ∈ t, c = ',' ∨ isBlank c := by
  have blankPieces : layers t = [] ↔ ∀ piece ∈ splitOutside (· = ',') 0 t, ∀ c ∈ piece, isBlank c := by
    unfold layers
    rw [List.filter_eq_nil_iff, List.forall_mem_map]
    refine forall₂_congr fun piece _ => ?_
    rw [← trim_eq_nil]
    simp
  rw [blankPieces]
  constructor
  · intro blank c member
    rcases mem_splitOutside (· = ',') member 0 with comma | ⟨piece, inside, stands⟩
    · exact .inl (of_decide_eq_true comma)
    · exact .inr (blank piece inside c stands)
  · intro commas piece inside c stands
    have flat : '(' ∉ t := by
      intro member
      rcases commas '(' member with comma | blank
      · cases comma
      · exact absurd blank (by decide)
    rw [splitOutside_of_flat _ flat] at inside
    have noComma := not_sep_of_mem_splitBy inside stands
    rcases commas c (mem_of_mem_splitBy inside stands) with comma | blank
    · simp [comma] at noComma
    · exact blank

def Block.group (block : Block) : Text := joinWith [' '] (words block.head)

/-- A rule that gives its animation a name, and the name is a list of nothing. -/
def Block.Nameless (block : Block) : Prop :=
  block.group ≠ [] ∧ block.group.head? ≠ some '@' ∧
    ∃ names, (declarations block.body).get? "animation-name".toList = some names ∧ names ≠ [] ∧
      ∀ c ∈ names, c = ',' ∨ isBlank c

def rules (css : Text) : List Block := blocks (fun _ => true) (removeKeyframes (stripComments css))

theorem filled?_eq_some {properties : Properties} {name : String} {value : Text} :
    filled? properties name = some value ↔ properties.get? name.toList = some value ∧ value ≠ [] := by
  unfold filled?
  split
  · rename_i empty
    rw [empty]
    constructor
    · intro found
      cases found
    · rintro ⟨same, nonempty⟩
      cases same
      exact absurd rfl nonempty
  · rename_i other
    constructor
    · intro found
      refine ⟨found, ?_⟩
      rintro rfl
      exact other found
    · exact fun found => found.1

theorem animationFields_fails {properties : Properties} {names : Text}
    (declared : filled? properties "animation-name" = some names) (nothing : layers names = []) :
    animationFields properties = .error .emptyName := by
  unfold animationFields
  simp only [declared, nothing]
  rfl

theorem animationFields_succeeds {properties : Properties}
    (named : ∀ names, filled? properties "animation-name" = some names → layers names ≠ []) :
    ∃ fields, animationFields properties = .ok fields := by
  unfold animationFields
  cases declared : filled? properties "animation-name" with
  | none => exact ⟨_, rfl⟩
  | some names =>
    obtain ⟨name, others, found⟩ := List.exists_cons_of_ne_nil (named names declared)
    simp only [found]
    exact ⟨_, rfl⟩

def bound? (group : Text) (properties : Properties) (fields : AnimationFields) : Option Animation :=
  match fields.name with
  | none | some [] => none
  | some name =>
    if name = "none".toList then none
    else some (.ofFields group name fields
      (properties.filter fun (property, _) => !isOneOf animationProperties property))

theorem Block.animation?_eq (block : Block) :
    block.animation? =
      if block.group = [] ∨ block.group.head? = some '@' then .ok none
      else (animationFields (declarations block.body)).map (bound? block.group (declarations block.body)) := by
  unfold Block.animation?
  by_cases noRule : block.group = [] ∨ block.group.head? = some '@'
  · rw [if_pos noRule]
    unfold Block.group at noRule
    simp only [Bool.or_eq_true, List.isEmpty_iff, decide_eq_true_eq, if_pos noRule]
    rfl
  · rw [if_neg noRule]
    unfold Block.group at noRule ⊢
    simp only [Bool.or_eq_true, List.isEmpty_iff, decide_eq_true_eq, if_neg noRule]
    cases animationFields (declarations block.body) with
    | error e => rfl
    | ok fields =>
      change (match fields.name with | none | some [] => _ | some name => _) = Except.ok (bound? _ _ fields)
      unfold bound?
      split
      · rfl
      · rfl
      · split <;> rfl

theorem Block.animation?_fails {block : Block} (nameless : block.Nameless) :
    block.animation? = .error .emptyName := by
  obtain ⟨nonempty, noRule, names, declared, filled, commas⟩ := nameless
  have failed := animationFields_fails (filled?_eq_some.mpr ⟨declared, filled⟩) (layers_eq_nil.mpr commas)
  rw [Block.animation?_eq, if_neg (not_or.mpr ⟨nonempty, noRule⟩), failed]
  rfl

theorem Block.animation?_succeeds {block : Block} (named : ¬ block.Nameless) :
    ∃ animation?, block.animation? = .ok animation? := by
  rw [Block.animation?_eq]
  split
  · exact ⟨none, rfl⟩
  · rename_i isRule
    rw [not_or] at isRule
    have layered : ∀ names, filled? (declarations block.body) "animation-name" = some names →
        layers names ≠ [] := by
      intro names declared nothing
      obtain ⟨found, filled⟩ := filled?_eq_some.mp declared
      exact named ⟨isRule.1, isRule.2, names, found, filled, layers_eq_nil.mp nothing⟩
    obtain ⟨fields, read⟩ := animationFields_succeeds layered
    exact ⟨bound? block.group (declarations block.body) fields, by rw [read]; rfl⟩

theorem filterMapM_ok {α β ε : Type} {f : α → Except ε (Option β)} {items : List α}
    (succeeds : ∀ item ∈ items, ∃ result, f item = .ok result) :
    ∃ results, items.filterMapM f = .ok results := by
  induction items with
  | nil => exact ⟨[], rfl⟩
  | cons item items ih =>
    obtain ⟨first, read⟩ := succeeds item (by simp)
    obtain ⟨others, rest⟩ := ih fun other member => succeeds other (List.mem_cons_of_mem _ member)
    rw [List.filterMapM_cons, read, rest]
    cases first with
    | none => exact ⟨others, rfl⟩
    | some result => exact ⟨result :: others, rfl⟩

theorem filterMapM_error {α β ε : Type} {f : α → Except ε (Option β)} {items : List α} {item : α} {error : ε}
    (member : item ∈ items) (failed : f item = .error error) :
    ∃ error, items.filterMapM f = .error error := by
  induction items with
  | nil => cases member
  | cons first items ih =>
    rw [List.filterMapM_cons]
    cases read : f first with
    | error e => exact ⟨e, rfl⟩
    | ok result =>
      rcases List.mem_cons.mp member with rfl | later
      · rw [read] at failed
        cases failed
      · obtain ⟨e, rest⟩ := ih later
        rw [rest]
        cases result <;> exact ⟨e, rfl⟩

theorem animations_eq (css : Text) :
    animations css = ((rules css).filterMapM Block.animation?).map fun found =>
      Table.ofList (found.map fun animation => (animation.selectorGroup, animation)) := by
  change ((rules css).filterMapM Block.animation?).bind _ = _
  cases (rules css).filterMapM Block.animation? <;> rfl

/-- Bindings cannot be read exactly where some rule is nameless; the table is there in all other cases.
    Keyframes are read in any case, and the decimals in times and offsets are all numbers. -/
theorem reading_fails_iff_nameless (css : Text) :
    (animations css = .error .emptyName ↔ ∃ rule ∈ rules css, rule.Nameless) ∧
      ((∀ rule ∈ rules css, ¬ rule.Nameless) ↔ ∃ table, animations css = .ok table) ∧
      ∀ t decimal rest, takePlain? t = some (decimal, rest) →
        ∃ lexeme, t = lexeme ++ rest ∧ toFloat? lexeme = some (decimal.toFloat false) := by
  have fails : (∃ rule ∈ rules css, rule.Nameless) → animations css = .error .emptyName := by
    rintro ⟨rule, member, nameless⟩
    obtain ⟨error, failed⟩ := filterMapM_error member (Block.animation?_fails nameless)
    rw [animations_eq, failed]
    cases error
    rfl
  have succeeds : (∀ rule ∈ rules css, ¬ rule.Nameless) → ∃ table, animations css = .ok table := by
    intro named
    obtain ⟨found, read⟩ := filterMapM_ok fun rule member => Block.animation?_succeeds (named rule member)
    rw [animations_eq, read]
    exact ⟨_, rfl⟩
  refine ⟨⟨fun failed => ?_, fails⟩, ⟨succeeds, ?_⟩, fun t decimal rest => toFloat?_of_takePlain?⟩
  · by_contra named
    obtain ⟨table, read⟩ := succeeds fun rule member nameless => named ⟨rule, member, nameless⟩
    rw [failed] at read
    cases read
  · rintro ⟨table, read⟩ rule member nameless
    rw [fails ⟨rule, member, nameless⟩] at read
    cases read

example : (animations "a{animation-name:,}".toList).isOk = false := by decide +kernel

end Flipbook.Css
